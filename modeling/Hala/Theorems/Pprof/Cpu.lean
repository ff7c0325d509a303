import Hala.Pprof.Cpu

/-! Whether the sessions of the CPU profiler stay apart.

The flag is set in a session only, so every call of `sample` belongs to one. As long as no call is left when the samples are
drained, they are all of the session that ends; a call that is left pushes its sample after it. -/

namespace Hala.Pprof
open Machine

/-- What is stored is of a session that has not been reported yet; what is reported was begun after the start of its session,
    and after the report of every other. -/
def InSession (past : List CpuEvent) : CpuEvent → Prop
  | .stored sample => ∀ session samples, .reported session samples ∈ past → session < sample.session
  | .reported session samples => ∀ sample ∈ samples, session ≤ sample.session ∧
      ∀ session' samples', .reported session' samples' ∈ past → session' < sample.session

/-- When the samples are drained, no call of `sample` is between its test of the flag and its push. -/
def noneLeft (s : Cpu) : CpuAction → Bool
  | .drain => s.calls.isEmpty
  | _ => true

namespace Cpu
variable {s s' : Cpu} {past : List CpuEvent} {a : CpuAction}

structure Sessions (s : Cpu) (past : List CpuEvent) : Prop where
  apart : Throughout InSession past
  flag : s.profiler.flag = true ↔ s.control = .started
  stored : ∀ sample ∈ s.profiler.samples, sample.session = s.starts
  calls : ∀ call ∈ s.calls, call.session = s.starts
  stopped : s.control = .stopped → s.profiler.samples = [] ∧ s.calls = []
  reported : ∀ session samples, .reported session samples ∈ past →
    session < s.starts ∨ session = s.starts ∧ s.control = .stopped
  no_panic : s.control ≠ .panicked

theorem sessions_init : Sessions {} [] where
  apart := trivial
  flag := by decide
  stored := by simp
  calls := by simp
  stopped _ := ⟨rfl, rfl⟩
  reported := by simp
  no_panic := by decide

theorem Sessions.start (h : Sessions s past) (hs : s.step .start = some s') : Sessions s' past := by
  simp only [step] at hs
  split at hs
  · next hcontrol =>
    obtain ⟨hsamples, hcalls⟩ := h.stopped hcontrol
    split at hs
    · next hflag =>
      have := h.flag.mp hflag
      rw [hcontrol] at this
      cases this
    · cases hs
      exact {
        apart := h.apart
        flag := by simp
        stored := by simp [hsamples]
        calls := by simp [hcalls]
        stopped := fun h => by cases h
        reported := by
          intro session samples hmem
          rcases h.reported session samples hmem with hlt | ⟨rfl, -⟩
          · exact .inl (Nat.lt_succ_of_lt hlt)
          · exact .inl (Nat.lt_succ_self _)
        no_panic := fun h => by cases h }
  · cases hs

theorem Sessions.report (h : Sessions s past) (hs : s.step .report = some s') : Sessions s' past := by
  simp only [step] at hs
  split at hs
  · next hcontrol =>
    split at hs
    · cases hs
      exact {
        apart := h.apart
        flag := by simp
        stored := h.stored
        calls := h.calls
        stopped := fun h => by cases h
        reported := by
          intro session samples hmem
          rcases h.reported session samples hmem with hlt | ⟨-, hstopped⟩
          · exact .inl hlt
          · rw [hcontrol] at hstopped
            cases hstopped
        no_panic := fun h => by cases h }
    · next hflag => exact absurd (h.flag.mpr hcontrol) hflag
  · cases hs

/-- The reports so far are of earlier sessions. -/
theorem Sessions.reported_lt (h : Sessions s past) (hcontrol : s.control ≠ .stopped) {session : Nat}
    {samples : List CpuSample} (hmem : .reported session samples ∈ past) : session < s.starts := by
  rcases h.reported session samples hmem with hlt | ⟨-, hstopped⟩
  · exact hlt
  · exact absurd hstopped hcontrol

theorem Sessions.drain (h : Sessions s past) (hleft : s.calls = []) (hs : s.step .drain = some s') :
    Sessions s' (.reported s.starts s.profiler.samples :: past) := by
  simp only [step] at hs
  split at hs
  · next hcontrol =>
    have hnot : s.control ≠ .stopped := by simp [hcontrol]
    have hflag : s.profiler.flag ≠ true := fun hflag => by
      have := h.flag.mp hflag
      rw [hcontrol] at this
      cases this
    cases hs
    refine {
      apart := ⟨?_, h.apart⟩
      flag := by simp [hflag]
      stored := by simp
      calls := h.calls
      stopped := fun _ => ⟨rfl, hleft⟩
      reported := ?_
      no_panic := fun h => by cases h }
    · intro sample hsample
      rw [h.stored sample hsample]
      exact ⟨Nat.le_refl _, fun session' samples' hmem => h.reported_lt hnot hmem⟩
    · intro session samples hmem
      rcases List.mem_cons.mp hmem with heq | hmem
      · cases heq
        exact .inr ⟨rfl, rfl⟩
      · exact .inl (h.reported_lt hnot hmem)
  · cases hs

theorem Sessions.sample (h : Sessions s past) (instant : Nat) (hs : s.step (.sample instant) = some s') :
    Sessions s' past := by
  simp only [step, Option.some.injEq] at hs
  subst hs
  split
  · next hflag =>
    have hcontrol := h.flag.mp hflag
    refine { h with calls := ?_, stopped := fun hstopped => ?_ }
    · intro call hcall
      rcases List.mem_append.mp hcall with hcall | hcall
      · exact h.calls call hcall
      · rw [List.mem_singleton.mp hcall]
        rfl
    · rw [hcontrol] at hstopped
      cases hstopped
  · exact h

/-- A session with calls that are left has not ended. -/
theorem Sessions.not_stopped (h : Sessions s past) {call : SampleCall} (hcall : call ∈ s.calls) : s.control ≠ .stopped := by
  intro hstopped
  rw [(h.stopped hstopped).2] at hcall
  cases hcall

theorem Sessions.next {j now : Nat} {frames : List Nat} (h : Sessions s past) (hs : s.step (.next j frames now) = some s') :
    Sessions s' ((events s (.next j frames now)).reverse ++ past) := by
  simp only [step] at hs
  split at hs
  · next instant session hcall =>
    have hmem := List.mem_of_getElem? hcall
    have hnot := h.not_stopped hmem
    cases hs
    simp only [events, hcall]
    refine { h with calls := ?_, stopped := fun hstopped => absurd hstopped hnot }
    intro call hcall'
    rcases List.mem_or_eq_of_mem_set hcall' with hcall' | rfl
    · exact h.calls call hcall'
    · exact h.calls (.backtrace instant session) hmem
  · next sample hcall =>
    have hmem := List.mem_of_getElem? hcall
    have hnot := h.not_stopped hmem
    have hsession : sample.session = s.starts := h.calls _ hmem
    cases hs
    simp only [events, hcall]
    refine {
      apart := ⟨?_, h.apart⟩
      flag := h.flag
      stored := ?_
      calls := fun call hcall' => h.calls call (List.mem_of_mem_eraseIdx hcall')
      stopped := fun hstopped => absurd hstopped hnot
      reported := ?_
      no_panic := h.no_panic }
    · intro session samples hreported
      rw [hsession]
      exact h.reported_lt hnot hreported
    · intro sample' hsample'
      rcases List.mem_append.mp hsample' with hsample' | hsample'
      · exact h.stored sample' hsample'
      · rw [List.mem_singleton.mp hsample']
        exact hsession
    · intro session samples hreported
      rcases List.mem_cons.mp hreported with heq | hreported
      · cases heq
      · exact h.reported session samples hreported
  · cases hs

theorem Sessions.step (h : Sessions s past) (hok : noneLeft s a = true) (hs : s.step a = some s') :
    Sessions s' ((events s a).reverse ++ past) := by
  cases a with
  | start => exact h.start hs
  | report => exact h.report hs
  | drain => exact h.drain (List.isEmpty_iff.mp hok) hs
  | sample instant => exact h.sample instant hs
  | next j frames now => exact h.next hs

/-- A call of `sample` can come to its push. -/
theorem pushes {call : SampleCall} {calls : List SampleCall} (hcalls : s.calls = call :: calls) (past : List CpuEvent) :
    ∃ as s'' sample, run (traced Cpu.step events) (s, past) as = some (s'', .stored sample :: past) ∧
      sample.session = call.session := by
  cases call with
  | backtrace instant session =>
    exact ⟨[.next 0 [] instant, .next 0 [] instant], _, { cpuTimes := instant - instant, frames := [], session := session },
      by simp [run, runIf, traced, Cpu.step, events, hcalls]; rfl, rfl⟩
  | push sample => exact ⟨[.next 0 [] 0], _, sample, by simp [run, runIf, traced, Cpu.step, events, hcalls]; rfl, rfl⟩

/-- A call that is left when the samples are drained pushes its sample after it. -/
theorem Sessions.leaks (h : Sessions s past) (hleft : noneLeft s a = false) (hs : s.step a = some s') :
    ∃ as t, run (traced Cpu.step events) (s', (events s a).reverse ++ past) as = some t ∧ ¬Throughout InSession t.2 := by
  cases a with
  | drain =>
    have hne : s.calls ≠ [] := by
      rintro hnil
      simp [noneLeft, hnil] at hleft
    obtain ⟨call, calls, hcalls⟩ := List.exists_cons_of_ne_nil hne
    have hsession : call.session = s.starts := h.calls call (by simp [hcalls])
    have hcalls' : s'.calls = call :: calls := by
      simp only [Cpu.step] at hs
      split at hs
      · cases hs
        exact hcalls
      · cases hs
    obtain ⟨as, s'', sample, hrun, hsample⟩ := pushes hcalls' (.reported s.starts s.profiler.samples :: past)
    refine ⟨as, _, hrun, fun hapart => ?_⟩
    have := hapart.1 s.starts s.profiler.samples List.mem_cons_self
    omega
  | start | report | sample | next => cases hleft

end Cpu

/-- In every run in which no call of `sample` is left when the samples are drained, no sample leaks into another session;
    once one is left, the run can go on so that its sample does. -/
theorem sessions_apart (s : Cpu) (past : List CpuEvent)
    (h : Reaches (traced Cpu.step Cpu.events) (fun t a => noneLeft t.1 a = true) ({}, []) (s, past)) :
    Throughout InSession past ∧
    ∀ a s', s.step a = some s' → noneLeft s a = false →
      ∃ as t, run (traced Cpu.step Cpu.events) (s', (Cpu.events s a).reverse ++ past) as = some t ∧ ¬Throughout InSession t.2 := by
  have hinv : Cpu.Sessions s past := h.traced_invariant Cpu.sessions_init fun hinv hok hs => hinv.step hok hs
  exact ⟨hinv.apart, fun a s' hs hleft => hinv.leaks hleft hs⟩

/-- Two sessions; in the first, a sample is pushed after the flag has been cleared, and in between one finds it cleared. -/
def twoSessions : List CpuAction :=
  [.start, .sample 100, .sample 110, .next 0 [7] 105, .next 0 [] 0, .report, .next 0 [8] 116, .next 0 [] 0, .drain,
    .sample 120, .start, .sample 130, .next 0 [7] 134, .next 0 [] 0, .report, .drain]

theorem sessions_apart_two : ∃ s past,
    runIf (traced Cpu.step Cpu.events) (fun t a => noneLeft t.1 a) ({}, []) twoSessions = some (s, past) ∧
    .reported 1 [⟨5, [7], 1⟩, ⟨6, [8], 1⟩] ∈ past ∧ .reported 2 [⟨4, [7], 2⟩] ∈ past ∧ Throughout InSession past :=
  ⟨_, _, rfl, by decide, by decide, (sessions_apart _ _ (.of_runIf twoSessions (fun _ _ h => h) rfl)).1⟩

/-- A call of `sample` takes its backtrace while the session is reported, and the next report has its sample. -/
def straddling : List CpuAction :=
  [.start, .sample 100, .report, .drain, .next 0 [7] 105, .next 0 [] 0, .start, .report, .drain]

theorem sample_leaks : ∃ s, run (traced Cpu.step Cpu.events) ({}, []) straddling =
      some (s, [.reported 2 [⟨5, [7], 1⟩], .stored ⟨5, [7], 1⟩, .reported 1 []]) ∧
    ¬Throughout InSession [.reported 2 [⟨5, [7], 1⟩], .stored ⟨5, [7], 1⟩, .reported 1 []] := by
  refine ⟨_, rfl, fun hapart => ?_⟩
  have := hapart.2.1 1 [] (by simp)
  cases this with
  | step h => cases h

end Hala.Pprof
