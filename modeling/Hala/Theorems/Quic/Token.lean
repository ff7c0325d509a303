import Hala.Quic.Listener

/-! Which addresses an address-validation token is good for.

A token is a tag, an address of 4 or 16 bytes and a connection id, one behind the other and without lengths. A
check of the address of one family can therefore be met by a token that was minted for an address of the other. -/

namespace Hala.Quic

/-- `validate_token` accepts what `mint_token` writes, and nothing else. -/
theorem validateToken_eq_ok_iff {token : Bytes} {src : SocketAddr} {id : ConnId} :
    validateToken token src = .ok id ↔ token = tokenTag ++ src.ip.octets ++ id := by
  unfold validateToken
  constructor
  · intro h
    split at h
    · cases h
    split at h
    · cases h
    next htag =>
    dsimp only at h
    split at h
    · cases h
    next haddr =>
    simp only [not_or, ne_eq, not_not] at htag haddr
    obtain ⟨-, haddr⟩ := haddr
    cases h
    calc token = token.take 6 ++ token.drop 6 := (List.take_append_drop 6 token).symm
      _ = tokenTag ++ ((token.drop 6).take src.ip.octets.length ++ (token.drop 6).drop src.ip.octets.length) := by
        rw [htag, List.take_append_drop]
      _ = tokenTag ++ src.ip.octets ++ (token.drop 6).drop src.ip.octets.length := by rw [haddr, List.append_assoc]
  · rintro rfl
    have hlen : ¬(tokenTag ++ src.ip.octets ++ id).length < 6 := by
      simp only [tokenTag, List.length_append, List.length_cons, List.length_nil]
      omega
    have htag : (tokenTag ++ src.ip.octets ++ id).take 6 = tokenTag := by rw [List.append_assoc]; rfl
    have hrest : (tokenTag ++ src.ip.octets ++ id).drop 6 = src.ip.octets ++ id := by rw [List.append_assoc]; rfl
    have hoctets : ¬(src.ip.octets ++ id).length < src.ip.octets.length := by
      simp only [List.length_append]
      omega
    rw [if_neg hlen, if_neg (not_not.mpr htag)]
    simp only [hrest, hoctets, List.take_left, List.drop_left, ne_eq, not_true_eq_false, or_self, if_false]

theorem sliceTo_eq_ok {ε : Type} {buf : Bytes} {n : Nat} (h : n ≤ buf.length) :
    (Io.sliceTo buf n : Except (Abort ε) Bytes) = .ok (buf.take n) := if_pos h

theorem sliceFrom_eq_ok {ε : Type} {buf : Bytes} {n : Nat} (h : n ≤ buf.length) :
    (Io.sliceFrom buf n : Except (Abort ε) Bytes) = .ok (buf.drop n) := if_pos h

/-- No slice of `validate_token` is out of range. -/
theorem validateTokenSliced_eq (token : Bytes) (src : SocketAddr) :
    validateTokenSliced token src = (validateToken token src).mapError .error := by
  unfold validateTokenSliced validateToken
  dsimp only
  by_cases hlen : token.length < 6
  · rw [if_pos hlen, if_pos hlen]
    rfl
  rw [if_neg hlen, if_neg hlen, sliceTo_eq_ok (Nat.not_lt.mp hlen), sliceFrom_eq_ok (Nat.not_lt.mp hlen)]
  simp only [bind, Except.bind]
  by_cases htag : token.take 6 ≠ tokenTag
  · rw [if_pos htag, if_pos htag]
    rfl
  rw [if_neg htag, if_neg htag]
  by_cases hshort : (token.drop 6).length < src.ip.octets.length
  · rw [if_pos hshort, if_pos (Or.inl hshort)]
    rfl
  rw [if_neg hshort, sliceTo_eq_ok (Nat.not_lt.mp hshort), sliceFrom_eq_ok (Nat.not_lt.mp hshort)]
  by_cases haddr : (token.drop 6).take src.ip.octets.length ≠ src.ip.octets
  · simp only [if_pos haddr, if_pos (Or.inr haddr)]
    rfl
  · simp only [if_neg haddr, if_neg (not_or.mpr ⟨hshort, haddr⟩)]
    rfl

/-- `validate_token` returns the connection id exactly of the tokens that `mint_token` makes for the address, and
    rejects every other byte string with an error and no slice out of range. -/
theorem validateToken_decodes (token : Bytes) (src : SocketAddr) :
    (∀ header, validateTokenSliced token src = .ok header.dcid ↔ token = mintToken header src) ∧
      ((∀ header, token ≠ mintToken header src) → ∃ err, validateTokenSliced token src = .error (.error err)) := by
  rw [validateTokenSliced_eq]
  have hdecodes : ∀ header : Header, (validateToken token src).mapError Abort.error = .ok header.dcid ↔
      token = mintToken header src := by
    intro header
    unfold mintToken
    rw [← validateToken_eq_ok_iff]
    cases validateToken token src with
    | error err => simp [Except.mapError]
    | ok id => simp [Except.mapError]
  refine ⟨hdecodes, fun hother => ?_⟩
  cases hvalidate : validateToken token src with
  | error err => exact ⟨err, rfl⟩
  | ok id =>
    refine absurd (hdecodes { ty := .initial, version := 1, dcid := id, scid := [], token := none }).mp ?_
    intro h
    exact hother _ (h (by rw [hvalidate]; rfl))

/-- A token for `a` is accepted for `b` exactly when the octets of `b` begin the rest of it. -/
theorem validateToken_mintToken_iff {header : Header} {a b : SocketAddr} :
    (∃ id, validateToken (mintToken header a) b = .ok id) ↔ b.ip.octets <+: a.ip.octets ++ header.dcid := by
  simp only [validateToken_eq_ok_iff, mintToken, List.append_assoc, List.append_cancel_left_eq, List.IsPrefix]
  constructor
  · rintro ⟨id, h⟩
    exact ⟨id, h.symm⟩
  · rintro ⟨id, h⟩
    exact ⟨id, h.symm⟩

/-- A token for `a` with the id `dcid` passes for one of `b`: `b` is made of the first octets of the IPv6 address
    `a`, or of the IPv4 address `a` and the first twelve bytes of the id. -/
def MistakenFor (dcid : ConnId) : (a b : IpAddr) → Prop
  | .v6 a, .v4 b => b.toList = a.toList.take 4
  | .v4 a, .v6 b => b.toList = a.toList ++ dcid.take 12
  | _, _ => False

/-- The octets of `b` begin the address `a` and the id behind it only when `a` is `b` or is mistaken for it. -/
theorem octets_prefix_iff {dcid : ConnId} {a b : IpAddr} :
    b.octets <+: a.octets ++ dcid ↔ a = b ∨ MistakenFor dcid a b := by
  rw [List.prefix_iff_eq_take, List.take_append]
  -- Octets of one family have one length, so they are equal or differ within it.
  cases a with
  | v4 a =>
    cases b with
    | v4 b => simp [IpAddr.octets, MistakenFor, List.take_of_length_le, Vector.toList_inj, eq_comm]
    | v6 b => simp [IpAddr.octets, MistakenFor, List.take_of_length_le]
  | v6 a =>
    cases b with
    | v4 b => simp [IpAddr.octets, MistakenFor]
    | v6 b => simp [IpAddr.octets, MistakenFor, List.take_of_length_le, Vector.toList_inj, eq_comm]

theorem MistakenFor.ne {dcid : ConnId} {a b : IpAddr} (h : MistakenFor dcid a b) : a ≠ b := by
  rintro rfl
  cases a <;> cases h

/-- A token that was minted for one address and is accepted for another means that both have the same IP, exactly
    when the one is not mistaken for the other. -/
theorem token_bound_iff (header : Header) (a b : SocketAddr) :
    ((∃ id, validateToken (mintToken header a) b = .ok id) → a.ip = b.ip) ↔ ¬MistakenFor header.dcid a.ip b.ip := by
  rw [validateToken_mintToken_iff, octets_prefix_iff]
  constructor
  · intro h hmistaken
    exact hmistaken.ne (h (Or.inr hmistaken))
  · rintro h (heq | hmistaken)
    · exact heq
    · exact absurd hmistaken h

/-- The token of `2001:db8::1` is accepted for `32.1.13.184`. -/
theorem token_crosses_families :
    let header : Header := { ty := .initial, version := 1, dcid := List.replicate 20 7, scid := [], token := some [] }
    let a : SocketAddr := { ip := .v6 #v[32, 1, 13, 184, 0, 0, 0, 0, 0, 0, 0, 0, 0, 0, 0, 1], port := 5000 }
    let b : SocketAddr := { ip := .v4 #v[32, 1, 13, 184], port := 5000 }
    (∃ id, validateToken (mintToken header a) b = .ok id) ∧ a.ip ≠ b.ip :=
  ⟨⟨_, rfl⟩, by decide⟩

end Hala.Quic
