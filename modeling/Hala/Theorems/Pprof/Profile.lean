import Hala.Theorems.Pprof.Report

/-! The profile of a report that is built once.

It is well formed, and a reader gets back from it what has been reported. -/

namespace Hala.Pprof
open Proto

/-- The calls of `report_block_info` or of `report_cpu_sample`, one after another. -/
def GperfReport.reportAll (names : SampleNames) : List Reported → GperfReport → Option GperfReport
  | [], r => some r
  | reported :: reports, r => do
    let (r, _) ← r.report names reported
    reportAll names reports r

/-- Symbols with equal addresses are equal. -/
def SymbolsAgree (reports : List Reported) : Prop :=
  ∀ x ∈ reports, ∀ y ∈ reports, ∀ s ∈ x.frames, ∀ s' ∈ y.frames, s.address = s'.address → s = s'

theorem GperfReport.Describes.reportAll {names : SampleNames} {done : List Reported} {pushed : List Symbol}
    {r : GperfReport} (h : r.Describes names done pushed) (reports : List Reported) :
    ∃ r' pushed', GperfReport.reportAll names reports r = some r' ∧ r'.Describes names (done ++ reports) pushed' := by
  induction reports generalizing done pushed r with
  | nil =>
    rw [List.append_nil]
    exact ⟨r, pushed, rfl, h⟩
  | cons reported reports ih =>
    obtain ⟨r₁, pushed₁, hreport, hdescribes⟩ := h.report reported
    obtain ⟨r₂, pushed₂, hrest, hdescribes'⟩ := ih hdescribes
    refine ⟨r₂, pushed₂, ?_, ?_⟩
    · simp only [GperfReport.reportAll, hreport, Option.bind_eq_bind, Option.bind_some, hrest]
    · rwa [List.append_assoc, List.singleton_append] at hdescribes'

/-! ### What is built -/

/-- The profile of what has been reported, whose functions and locations are those of the pushed symbols. -/
structure ProfileOf (names : SampleNames) (done : List Reported) (pushed : List Symbol) (p : Profile) : Prop where
  strings : p.stringTable.head? = some ""
  sampleType : ∃ type unit, p.sampleType = [{ type, unit }] ∧ Denotes p.stringTable type names.type ∧
    Denotes p.stringTable unit names.unit
  function_length : p.function.length = pushed.length
  function : ∀ i symbol, pushed[i]? = some symbol →
    ∃ func, p.function[i]? = some func ∧ FunctionOf p.stringTable i symbol func
  location : p.location = pushed.mapIdx locationOf
  reported : ∀ symbol ∈ pushed, ∃ reported ∈ done, symbol ∈ reported.frames
  sample : List.Forall₂ (SampleOf names p.stringTable pushed) done p.sample
  others : p.dropFrames = 0 ∧ p.keepFrames = 0 ∧ p.defaultSampleType = 0

theorem GperfReport.Describes.build {names : SampleNames} {done : List Reported} {pushed : List Symbol} {r : GperfReport}
    (h : r.Describes names done pushed) : ProfileOf names done pushed (r.build names).1 := by
  let typed := r.stringTable.insert names.type
  let units := typed.2.insert names.unit
  have htypes : r.stringTable.table <+: typed.2.table := r.stringTable.table_prefix_insert _
  have hunits : typed.2.table <+: units.2.table := typed.2.table_prefix_insert _
  have htyped : typed.2.Ok := h.tables.strings.insert _
  have htables := (h.tables.insert names.type r.samples).insert names.unit r.samples
  exact
    { strings := htables.strings.first
      sampleType := ⟨typed.1, units.1, rfl, (h.tables.strings.denotes_insert _).mono hunits, htyped.denotes_insert _⟩
      function_length := htables.funcs_length
      function := htables.funcs
      location := htables.locTable
      reported := h.reported
      sample := h.samples.imp fun _ _ hof => hof.mono List.prefix_rfl (htypes.trans hunits)
      others := ⟨rfl, rfl, rfl⟩ }

namespace ProfileOf
variable {names : SampleNames} {done : List Reported} {pushed : List Symbol} {p : Profile} {symbol : Symbol} {id i : Nat}

/-- The function of a position. -/
theorem function_of_getElem? (h : ProfileOf names done pushed p) {func : Proto.Function} (hget : p.function[i]? = some func) :
    ∃ symbol, pushed[i]? = some symbol ∧ FunctionOf p.stringTable i symbol func := by
  have hi : i < pushed.length := by
    rw [← h.function_length]
    exact (List.getElem?_eq_some_iff.mp hget).1
  have hsymbol := List.getElem?_eq_getElem hi
  obtain ⟨func', hfunc, hof⟩ := h.function i _ hsymbol
  obtain rfl : func = func' := Option.some.inj (hget.symm.trans hfunc)
  exact ⟨_, hsymbol, hof⟩

theorem functions_numbered (h : ProfileOf names done pushed p) : Intern.Numbered Proto.Function.id 1 p.function := by
  intro i func hget
  obtain ⟨symbol, -, hof⟩ := h.function_of_getElem? hget
  rw [hof.id, Nat.add_comm]

theorem location_getElem? (h : ProfileOf names done pushed p) (hget : pushed[i]? = some symbol) :
    p.location[i]? = some (locationOf i symbol) := by
  rw [h.location, List.getElem?_mapIdx, hget, Option.map_some]

theorem location_of_getElem? (h : ProfileOf names done pushed p) {loc : Location} (hget : p.location[i]? = some loc) :
    ∃ symbol, pushed[i]? = some symbol ∧ loc = locationOf i symbol := by
  rw [h.location, List.getElem?_mapIdx, Option.map_eq_some_iff] at hget
  obtain ⟨symbol, hsymbol, rfl⟩ := hget
  exact ⟨symbol, hsymbol, rfl⟩

theorem locations_numbered (h : ProfileOf names done pushed p) : Intern.Numbered Location.id 1 p.location := by
  intro i loc hget
  obtain ⟨symbol, -, rfl⟩ := h.location_of_getElem? hget
  exact Nat.add_comm _ _

/-- The empty string is at the index that is not set. -/
theorem denotes_zero (h : ProfileOf names done pushed p) : Denotes p.stringTable 0 "" :=
  ⟨0, rfl, by rw [← List.head?_eq_getElem?, h.strings]⟩

theorem function_of_mem (h : ProfileOf names done pushed p) {func : Proto.Function} (hfunc : func ∈ p.function) :
    ∃ i symbol, pushed[i]? = some symbol ∧ FunctionOf p.stringTable i symbol func := by
  obtain ⟨i, hget⟩ := List.mem_iff_getElem?.mp hfunc
  exact ⟨i, h.function_of_getElem? hget⟩

theorem denotes_index (h : ProfileOf names done pushed p) : ∀ i ∈ p.stringIndices, ∃ s, Denotes p.stringTable i s := by
  intro i hi
  have hzero : ∃ s, Denotes p.stringTable 0 s := ⟨"", h.denotes_zero⟩
  simp only [Profile.stringIndices, List.mem_append, List.mem_flatMap, List.mem_cons, List.not_mem_nil, or_false] at hi
  rcases hi with ((⟨type, htype, hi⟩ | ⟨sample, hsample, label, hlabel, hi⟩) | ⟨func, hfunc, hi⟩) | hi
  · obtain ⟨t, u, hsingle, ht, hu⟩ := h.sampleType
    rw [hsingle, List.mem_singleton] at htype
    subst htype
    rcases hi with rfl | rfl
    · exact ⟨_, ht⟩
    · exact ⟨_, hu⟩
  · obtain ⟨reported, -, hof⟩ := exists_of_forall₂ h.sample hsample
    obtain ⟨key, str, hsingle, hkey, hstr⟩ := hof.label
    rw [hsingle, List.mem_singleton] at hlabel
    subst hlabel
    rcases hi with rfl | rfl | rfl
    · exact ⟨_, hkey⟩
    · exact ⟨_, hstr⟩
    · exact hzero
  · obtain ⟨j, symbol, -, hof⟩ := h.function_of_mem hfunc
    rcases hi with rfl | rfl | rfl
    · rwa [hof.name]
    · exact ⟨_, hof.systemName⟩
    · exact ⟨_, hof.filename⟩
  · obtain ⟨hdrop, hkeep, hdefault⟩ := h.others
    rcases hi with rfl | rfl | rfl
    · rwa [hdrop]
    · rwa [hkeep]
    · rwa [hdefault]

theorem closed (h : ProfileOf names done pushed p) : p.Closed where
  first := h.strings
  strings := h.denotes_index
  locations sample hsample id hid := by
    obtain ⟨reported, -, hof⟩ := exists_of_forall₂ h.sample hsample
    obtain ⟨symbol, -, i, pushedSymbol, rfl, hget, -⟩ := exists_of_forall₂ hof.locations hid
    exact ⟨_, List.mem_of_getElem? (h.location_getElem? hget), Nat.add_comm _ _⟩
  functions loc hloc line hline := by
    obtain ⟨i, hget⟩ := List.mem_iff_getElem?.mp hloc
    obtain ⟨symbol, hsymbol, rfl⟩ := h.location_of_getElem? hget
    obtain rfl := List.mem_singleton.mp hline
    obtain ⟨func, hfunc, hof⟩ := h.function i symbol hsymbol
    exact ⟨func, List.mem_of_getElem? hfunc, hof.id⟩

theorem wellFormed (h : ProfileOf names done pushed p) : p.WellFormed where
  toClosed := h.closed
  location_nodup := h.locations_numbered.nodup
  location_ne_zero := h.locations_numbered.ne_zero Nat.one_pos
  function_nodup := h.functions_numbered.nodup
  function_ne_zero := h.functions_numbered.ne_zero Nat.one_pos
  values sample hsample := by
    obtain ⟨reported, -, hof⟩ := exists_of_forall₂ h.sample hsample
    obtain ⟨t, u, hsingle, -⟩ := h.sampleType
    rw [hof.value, hsingle, List.length_singleton, List.length_singleton]

/-- The frame of a location id is that of its pushed symbol. -/
theorem frame?_eq (h : ProfileOf names done pushed p) (hget : pushed[i]? = some symbol) :
    p.frame? (1 + i) = some symbol.frame := by
  obtain ⟨func, hfunc, hof⟩ := h.function i symbol hget
  have hloc : p.location.find? (·.id == 1 + i) = some (locationOf i symbol) :=
    h.locations_numbered.find? (h.location_getElem? hget)
  have hfunc' : p.function.find? (·.id == i + 1) = some func := by
    rw [Nat.add_comm]
    exact h.functions_numbered.find? hfunc
  simp only [Profile.frame?, hloc, locationOf, hfunc', Profile.string?_of_denotes hof.systemName,
    Profile.string?_of_denotes hof.filename, Option.bind_eq_bind, Option.bind_some]
  rfl

theorem frames_eq (h : ProfileOf names done pushed p) {frames : List Symbol} {ids : List Nat}
    (hagree : ∀ s ∈ frames, ∀ s' ∈ pushed, s'.address = s.address → s' = s) (hres : List.Forall₂ (Resolves pushed) frames ids) :
    ids.mapM p.frame? = some (frames.map Symbol.frame) := by
  induction hres with
  | nil => rfl
  | @cons symbol id frames ids hres _ ih =>
    obtain ⟨i, pushedSymbol, rfl, hget, haddress⟩ := hres
    obtain rfl : pushedSymbol = symbol :=
      hagree symbol List.mem_cons_self pushedSymbol (List.mem_of_getElem? hget) haddress
    have hrest := ih fun s hs => hagree s (List.mem_cons_of_mem _ hs)
    simp only [List.mapM_cons, h.frame?_eq hget, hrest, Option.bind_eq_bind, Option.bind_some, Option.pure_def, List.map_cons]

/-- A reader of the profile gets the frames of every sample, with its value. -/
theorem read_eq (h : ProfileOf names done pushed p) (hagree : SymbolsAgree done) :
    p.read = done.map fun reported => (some (reported.frames.map Symbol.frame), [asI64 reported.value]) := by
  have hpushed : ∀ reported ∈ done, ∀ s ∈ reported.frames, ∀ s' ∈ pushed, s'.address = s.address → s' = s := by
    intro reported hreported s hs s' hs' haddress
    obtain ⟨reported', hreported', hs''⟩ := h.reported s' hs'
    exact hagree reported' hreported' reported hreported s' hs'' s hs haddress
  obtain ⟨hlength, hsamples⟩ := List.forall₂_iff_get.mp h.sample
  apply List.ext_getElem
  · simp [Profile.read, hlength]
  · intro n hn hn'
    have hdone : n < done.length := by simpa using hn'
    have hsample : n < p.sample.length := hlength ▸ hdone
    have hof := hsamples n hdone hsample
    simp only [List.get_eq_getElem] at hof
    have hframes := h.frames_eq (hpushed done[n] (List.getElem_mem hdone)) hof.locations
    simp only [Profile.read, List.getElem_map, hframes, hof.value]

end ProfileOf

/-! ### The value -/

theorem asI64_of_lt {n : Nat} (h : n < 2 ^ 63) : asI64 n = n := by
  unfold asI64
  apply Int.bmod_eq_of_le <;> omega

/-- For every sequence of reports in which symbols with equal addresses are equal: no assertion fails, the profile that is
    built is well formed, and reading it gives the frames of every sample in order, and its value as an `i64`, which is the
    value itself where that is below 2^63. -/
theorem profile_describes (names : SampleNames) (reports : List Reported) (hagree : SymbolsAgree reports) :
    ∃ r, GperfReport.reportAll names reports .new = some r ∧ (r.build names).1.WellFormed ∧
      (r.build names).1.read =
        reports.map (fun reported => (some (reported.frames.map Symbol.frame), [asI64 reported.value])) ∧
      ∀ reported ∈ reports, reported.value < 2 ^ 63 → asI64 reported.value = reported.value := by
  have hnew : GperfReport.Describes names [] [] .new := .new
  obtain ⟨r, pushed, hrun, hdescribes⟩ := hnew.reportAll reports
  have hprofile := hdescribes.build
  exact ⟨r, hrun, hprofile.wellFormed, hprofile.read_eq hagree, fun _ _ => asI64_of_lt⟩

/-- Two samples that share the frame of `main`. -/
def sharedFrames : List Reported :=
  let main : Symbol := { name := "main", address := 16, fileName := "main.rs", lineNo := 1, colNo := 1 }
  let run : Symbol := { name := "run", address := 32, fileName := "main.rs", lineNo := 7, colNo := 1 }
  [{ label := 4096, value := 64, frames := [run, main] }, { label := 8192, value := 8, frames := [main] }]

theorem profile_describes_shared : SymbolsAgree sharedFrames ∧
    ∃ r, GperfReport.reportAll GperfHeapProfilerReport.names sharedFrames .new = some r ∧
      (r.build GperfHeapProfilerReport.names).1.WellFormed ∧
      (r.build GperfHeapProfilerReport.names).1.read =
        sharedFrames.map (fun reported => (some (reported.frames.map Symbol.frame), [asI64 reported.value])) ∧
      ∀ reported ∈ sharedFrames, reported.value < 2 ^ 63 → asI64 reported.value = reported.value := by
  have hagree : SymbolsAgree sharedFrames := by simp [SymbolsAgree, sharedFrames]
  exact ⟨hagree, profile_describes _ _ hagree⟩

/-- A time of 2^63 nanoseconds comes back negative. -/
theorem profile_value_wraps : ¬∀ reports : List Reported, SymbolsAgree reports →
    ∃ r, GperfReport.reportAll GperfCpuProfilerReport.names reports .new = some r ∧
      (r.build GperfCpuProfilerReport.names).1.read =
        reports.map fun reported => (some (reported.frames.map Symbol.frame), [(reported.value : Int)]) := by
  intro h
  have hagree : SymbolsAgree [{ label := 2 ^ 63, value := 2 ^ 63, frames := [] }] := by simp [SymbolsAgree]
  obtain ⟨r, hrun, hread⟩ := h _ hagree
  have hnew : GperfReport.Describes GperfCpuProfilerReport.names [] [] .new := .new
  obtain ⟨r', pushed, hrun', hdescribes⟩ := hnew.reportAll [{ label := 2 ^ 63, value := 2 ^ 63, frames := [] }]
  obtain rfl : r = r' := Option.some.inj (hrun.symm.trans hrun')
  rw [hdescribes.build.read_eq hagree] at hread
  exact absurd hread (by decide)

end Hala.Pprof
