import Hala.Pprof.Report
import Hala.Lib.Intern
import Mathlib.Data.List.Forall2

/-! What a report holds between its calls.

The functions and the locations are those of the symbols that have been pushed, in the order in which they were, and a
sample has one location for each of its frames. -/

namespace Hala.Pprof
open Proto

/-! ### Lists -/

theorem exists_of_forall₂ {α β : Type} {R : α → β → Prop} {l : List α} {l' : List β} (h : List.Forall₂ R l l') {b : β}
    (hb : b ∈ l') : ∃ a ∈ l, R a b := by
  induction h with
  | nil => cases hb
  | cons hr _ ih =>
    rcases List.mem_cons.mp hb with rfl | hb
    · exact ⟨_, List.mem_cons_self, hr⟩
    · obtain ⟨a, ha, hab⟩ := ih hb
      exact ⟨a, List.mem_cons_of_mem _ ha, hab⟩

/-! ### Strings -/

theorem Proto.Denotes.mono {table table' : List String} {i : Int} {s : String} (h : Denotes table i s)
    (hpre : table <+: table') : Denotes table' i s := by
  obtain ⟨n, hi, hget⟩ := h
  exact ⟨n, hi, Intern.getElem?_of_prefix hpre hget⟩

theorem Proto.Profile.string?_of_denotes {p : Profile} {i : Int} {s : String} (h : Denotes p.stringTable i s) :
    p.string? i = some s := by
  obtain ⟨n, rfl, hget⟩ := h
  unfold Profile.string?
  rw [if_neg (Int.not_lt.mpr (Int.natCast_nonneg n)), Int.toNat_natCast, hget]

/-- The table begins with the empty string, and the index is right about it. -/
structure StringTable.Ok (t : StringTable) : Prop where
  first : t.table.head? = some ""
  sound : Intern.Sound t.index id 0 t.table

theorem StringTable.Ok.new : StringTable.new.Ok := ⟨rfl, .empty⟩

theorem StringTable.Ok.denotes_zero {t : StringTable} (h : t.Ok) : Denotes t.table 0 "" :=
  ⟨0, rfl, by rw [← List.head?_eq_getElem?, h.first]⟩

theorem StringTable.table_prefix_insert (t : StringTable) (value : String) : t.table <+: (t.insert value).2.table := by
  unfold insert
  split
  · exact List.prefix_rfl
  · exact List.prefix_append _ _

theorem StringTable.Ok.insert {t : StringTable} (h : t.Ok) (value : String) : (t.insert value).2.Ok := by
  unfold StringTable.insert
  split
  · exact h
  · refine ⟨?_, ?_⟩
    · rw [List.head?_append, h.first, Option.some_or]
    · have hpush := h.sound.push value
      rwa [id, Nat.zero_add] at hpush

theorem StringTable.Ok.denotes_insert {t : StringTable} (h : t.Ok) (value : String) :
    Denotes (t.insert value).2.table (t.insert value).1 value := by
  unfold StringTable.insert
  split
  · next offset hindex =>
    obtain ⟨i, e, hoffset, hget, hkey⟩ := h.sound value offset hindex
    obtain rfl : e = value := hkey
    exact ⟨i, by rw [hoffset, Nat.zero_add], hget⟩
  · exact ⟨t.table.length, rfl, List.getElem?_concat_length⟩

/-! ### The symbols that have been pushed -/

def Symbol.frame (symbol : Symbol) : Frame :=
  { address := symbol.address, name := symbol.name, fileName := symbol.fileName, line := symbol.lineNo }

/-- What `push` makes of the symbol at position `i`. -/
structure FunctionOf (table : List String) (i : Nat) (symbol : Symbol) (func : Proto.Function) : Prop where
  id : func.id = i + 1
  name : func.name = 0
  systemName : Denotes table func.systemName symbol.name
  filename : Denotes table func.filename symbol.fileName

def locationOf (i : Nat) (symbol : Symbol) : Location :=
  { id := i + 1, address := symbol.address, line := [{ functionId := i + 1, line := symbol.lineNo }] }

/-- The tables are those of the symbols that have been pushed. -/
structure GperfReport.Tables (pushed : List Symbol) (r : GperfReport) : Prop where
  strings : r.stringTable.Ok
  funcs_length : r.funcTable.funcs.length = pushed.length
  funcs : ∀ i symbol, pushed[i]? = some symbol →
    ∃ func, r.funcTable.funcs[i]? = some func ∧ FunctionOf r.stringTable.table i symbol func
  locTable : r.locTable = pushed.mapIdx locationOf
  index : Intern.Sound r.funcTable.index Symbol.address 1 pushed

/-- The id is that of a pushed symbol with the address of this one. -/
def Resolves (pushed : List Symbol) (symbol : Symbol) (id : Nat) : Prop :=
  ∃ i pushedSymbol, id = 1 + i ∧ pushed[i]? = some pushedSymbol ∧ pushedSymbol.address = symbol.address

/-- The sample is that of the report. -/
structure SampleOf (names : SampleNames) (table : List String) (pushed : List Symbol) (reported : Reported)
    (sample : Sample) : Prop where
  locations : List.Forall₂ (Resolves pushed) reported.frames sample.locationId
  value : sample.value = [asI64 reported.value]
  label : ∃ key str, sample.label = [{ key, str }] ∧ Denotes table key names.label ∧ Denotes table str (hex reported.label)

/-- What has been reported is in the report. -/
structure GperfReport.Describes (names : SampleNames) (done : List Reported) (pushed : List Symbol) (r : GperfReport) :
    Prop where
  tables : r.Tables pushed
  reported : ∀ symbol ∈ pushed, ∃ reported ∈ done, symbol ∈ reported.frames
  samples : List.Forall₂ (SampleOf names r.stringTable.table pushed) done r.samples

/-- Tables grow at their ends. -/
structure GperfReport.Grows (pushed : List Symbol) (r : GperfReport) (pushed' : List Symbol) (r' : GperfReport) : Prop where
  tables : r'.Tables pushed'
  pushed : pushed <+: pushed'
  strings : r.stringTable.table <+: r'.stringTable.table
  samples : r'.samples = r.samples

section Growing
variable {pushed pushed' pushed'' : List Symbol} {r r' r'' : GperfReport} {symbol : Symbol} {id i : Nat}
  {table table' : List String} {names : SampleNames}

theorem FunctionOf.mono {func : Proto.Function} (h : FunctionOf table i symbol func) (hpre : table <+: table') :
    FunctionOf table' i symbol func where
  id := h.id
  name := h.name
  systemName := h.systemName.mono hpre
  filename := h.filename.mono hpre

theorem Resolves.mono (h : Resolves pushed symbol id) (hpre : pushed <+: pushed') : Resolves pushed' symbol id := by
  obtain ⟨i, pushedSymbol, hid, hget, haddress⟩ := h
  exact ⟨i, pushedSymbol, hid, Intern.getElem?_of_prefix hpre hget, haddress⟩

theorem SampleOf.mono {reported : Reported} {sample : Sample} (h : SampleOf names table pushed reported sample)
    (hpushed : pushed <+: pushed') (htable : table <+: table') : SampleOf names table' pushed' reported sample where
  locations := h.locations.imp fun _ _ hres => hres.mono hpushed
  value := h.value
  label := by
    obtain ⟨key, str, hlabel, hkey, hstr⟩ := h.label
    exact ⟨key, str, hlabel, hkey.mono htable, hstr.mono htable⟩

namespace GperfReport

theorem Grows.refl (h : r.Tables pushed) : Grows pushed r pushed r := ⟨h, List.prefix_rfl, List.prefix_rfl, rfl⟩

theorem Grows.trans (h : Grows pushed r pushed' r') (h' : Grows pushed' r' pushed'' r'') : Grows pushed r pushed'' r'' where
  tables := h'.tables
  pushed := h.pushed.trans h'.pushed
  strings := h.strings.trans h'.strings
  samples := h'.samples.trans h.samples

/-- A string is inserted; the samples are no part of the tables. -/
theorem Tables.insert (h : r.Tables pushed) (value : String) (samples : List Sample) :
    Tables pushed { r with stringTable := (r.stringTable.insert value).2, samples } where
  strings := h.strings.insert value
  funcs_length := h.funcs_length
  funcs i symbol hget := by
    obtain ⟨func, hfunc, hof⟩ := h.funcs i symbol hget
    exact ⟨func, hfunc, hof.mono (r.stringTable.table_prefix_insert value)⟩
  locTable := h.locTable
  index := h.index

/-- A symbol with a new address is pushed: its function, its location, and its address in the index. -/
theorem Tables.push (h : r.Tables pushed) (symbol : Symbol) :
    ∃ funcTable stringTable, (r.funcTable.get symbol = none →
      r.funcTable.push r.stringTable symbol = some (pushed.length + 1, funcTable, stringTable)) ∧
      Grows pushed r (pushed ++ [symbol]) { r with
        stringTable, funcTable, locTable := r.locTable ++ [locationOf pushed.length symbol] } := by
  let named := r.stringTable.insert symbol.name
  let filed := named.2.insert symbol.fileName
  let func : Proto.Function :=
    { id := pushed.length + 1, name := 0, systemName := named.1, filename := filed.1, startLine := symbol.lineNo }
  have hnamed : named.2.Ok := h.strings.insert _
  have hnames : r.stringTable.table <+: named.2.table := r.stringTable.table_prefix_insert _
  have hfiles : named.2.table <+: filed.2.table := named.2.table_prefix_insert _
  have hfunc : FunctionOf filed.2.table pushed.length symbol func :=
    ⟨rfl, rfl, (h.strings.denotes_insert _).mono hfiles, hnamed.denotes_insert _⟩
  refine ⟨{ funcs := r.funcTable.funcs ++ [func],
            index := Function.update r.funcTable.index symbol.address (some (pushed.length + 1)) }, filed.2, ?_, ?_⟩
  · intro hnew
    have hindex : r.funcTable.index symbol.address = none := hnew
    simp only [FnTable.push, hindex, h.funcs_length, named, filed, func]
  refine ⟨⟨hnamed.insert _, ?_, ?_, ?_, ?_⟩, List.prefix_append _ _, hnames.trans hfiles, rfl⟩
  · simp [h.funcs_length]
  · intro i symbol' hget
    by_cases hi : i < pushed.length
    · rw [List.getElem?_append_left hi] at hget
      obtain ⟨func', hfunc', hof⟩ := h.funcs i symbol' hget
      exact ⟨func', Intern.getElem?_of_prefix (List.prefix_append _ _) hfunc', hof.mono (hnames.trans hfiles)⟩
    · rw [List.getElem?_append_right (Nat.le_of_not_lt hi), List.getElem?_singleton] at hget
      split at hget
      · next hlast =>
        obtain rfl : i = pushed.length := by omega
        obtain rfl := Option.some.inj hget
        refine ⟨func, ?_, hfunc⟩
        rw [← h.funcs_length]
        exact List.getElem?_concat_length
      · cases hget
  · rw [List.mapIdx_concat, h.locTable]
  · have hpush := h.index.push symbol
    rwa [Nat.add_comm] at hpush

theorem reportFrame_spec (h : r.Tables pushed) (symbol : Symbol) : ∃ id r' pushed',
    r.reportFrame symbol = some ([id], r') ∧ Grows pushed r pushed' r' ∧ Resolves pushed' symbol id ∧
      ∀ s ∈ pushed', s ∈ pushed ∨ s = symbol := by
  cases hget : r.funcTable.get symbol with
  | some id =>
    have hres : Resolves pushed symbol id := h.index symbol.address id hget
    have hid : id ≠ 0 := by
      obtain ⟨i, -, rfl, -⟩ := hres
      omega
    refine ⟨id, r, pushed, ?_, .refl h, hres, fun s hs => Or.inl hs⟩
    simp only [reportFrame, hget, if_neg hid]
  | none =>
    obtain ⟨funcTable, stringTable, hpush, hgrows⟩ := h.push symbol
    refine ⟨pushed.length + 1, _, pushed ++ [symbol], ?_, hgrows, ?_, ?_⟩
    · have hloc : r.locTable.length = pushed.length := by rw [h.locTable, List.length_mapIdx]
      simp only [reportFrame, hget, hpush hget, Option.bind_eq_bind, Option.bind_some, hloc, if_true]
      rfl
    · exact ⟨pushed.length, symbol, Nat.add_comm _ _, List.getElem?_concat_length, rfl⟩
    · intro s hs
      simpa using hs

theorem reportFrames_spec (h : r.Tables pushed) (frames : List Symbol) : ∃ ids r' pushed',
    reportFrames frames r = some (ids, r') ∧ Grows pushed r pushed' r' ∧
      List.Forall₂ (Resolves pushed') frames ids ∧ ∀ s ∈ pushed', s ∈ pushed ∨ s ∈ frames := by
  induction frames generalizing r pushed with
  | nil => exact ⟨[], r, pushed, rfl, .refl h, .nil, fun s hs => Or.inl hs⟩
  | cons symbol frames ih =>
    obtain ⟨id, r₁, pushed₁, hframe, hgrows, hres, hmem⟩ := reportFrame_spec h symbol
    obtain ⟨ids, r₂, pushed₂, hframes, hgrows', hres', hmem'⟩ := ih hgrows.tables
    refine ⟨id :: ids, r₂, pushed₂, ?_, hgrows.trans hgrows', .cons (hres.mono hgrows'.pushed) hres', ?_⟩
    · simp only [reportFrames, hframe, hframes, Option.bind_eq_bind, Option.bind_some, List.singleton_append]
    · intro s hs
      rcases hmem' s hs with hs | hs
      · rcases hmem s hs with hs | rfl
        · exact Or.inl hs
        · exact Or.inr List.mem_cons_self
      · exact Or.inr (List.mem_cons_of_mem _ hs)

/-- The sample of a report, once its frames are known. -/
def addSample (names : SampleNames) (r : GperfReport) (reported : Reported) (ids : List Nat) : GperfReport :=
  let key := r.stringTable.insert names.label
  let str := key.2.insert (hex reported.label)
  let sample : Sample :=
    { locationId := ids, label := [{ key := key.1, str := str.1 }], value := [asI64 reported.value] }
  { r with stringTable := str.2, samples := r.samples ++ [sample] }

theorem report_of_frames {reported : Reported} {ids : List Nat} (h : reportFrames reported.frames r = some (ids, r')) :
    r.report names reported = some (r'.addSample names reported ids, true) := by
  simp only [GperfReport.report, h, Option.bind_eq_bind, Option.bind_some]
  rfl

theorem Describes.new : Describes names [] [] new where
  tables :=
    { strings := .new
      funcs_length := rfl
      funcs := fun _ _ h => by cases h
      locTable := rfl
      index := .empty }
  reported _ h := by cases h
  samples := .nil

theorem Describes.report {done : List Reported} (h : r.Describes names done pushed) (reported : Reported) :
    ∃ r' pushed', r.report names reported = some (r', true) ∧ r'.Describes names (done ++ [reported]) pushed' := by
  obtain ⟨ids, r₁, pushed₁, hframes, hgrows, hres, hmem⟩ := reportFrames_spec h.tables reported.frames
  let keyed := r₁.stringTable.insert names.label
  let labelled := keyed.2.insert (hex reported.label)
  have hkeys : r₁.stringTable.table <+: keyed.2.table := r₁.stringTable.table_prefix_insert _
  have hlabels : keyed.2.table <+: labelled.2.table := keyed.2.table_prefix_insert _
  have hkeyed : keyed.2.Ok := hgrows.tables.strings.insert _
  refine ⟨_, pushed₁, report_of_frames hframes, ?_, ?_, ?_⟩
  · exact (hgrows.tables.insert names.label r₁.samples).insert (hex reported.label) _
  · intro s hs
    rcases hmem s hs with hs | hs
    · obtain ⟨x, hx, hxs⟩ := h.reported s hs
      exact ⟨x, List.mem_append_left _ hx, hxs⟩
    · exact ⟨reported, by simp, hs⟩
  · rw [addSample, hgrows.samples]
    have hold := h.samples.imp fun x sample hof => hof.mono hgrows.pushed (hgrows.strings.trans (hkeys.trans hlabels))
    refine List.rel_append hold (.cons ?_ .nil)
    exact ⟨hres, rfl, keyed.1, labelled.1, rfl, (hgrows.tables.strings.denotes_insert _).mono hlabels, hkeyed.denotes_insert _⟩

end GperfReport

end Growing

end Hala.Pprof
