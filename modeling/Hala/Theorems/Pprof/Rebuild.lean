import Hala.Theorems.Pprof.Report
import Hala.Theorems.Pprof.Profile

/-! A report that is built more than once.

`build` drains the tables, and leaves the indices beside them as they are. What an index knows is never pushed again, so
that a second profile lacks the strings, the functions and the locations that the first one has. -/

namespace Hala.Pprof
open Proto

inductive ReportCall where
  | report (reported : Reported)
  | build
  deriving DecidableEq, Repr

/-- Calls of a report, with each profile that is built and what has been reported since the build before it. -/
def GperfReport.run (names : SampleNames) :
    List ReportCall → GperfReport → List Reported → Option (List (Profile × List Reported))
  | [], _, _ => some []
  | .report reported :: calls, r, since => do
    let (r, _) ← r.report names reported
    run names calls r (since ++ [reported])
  | .build :: calls, r, since => do
    let (p, r) := r.build names
    let profiles ← run names calls r []
    some ((p, since) :: profiles)

/-- The profile has all that it refers to, and its strings are those that were inserted: the names of the values, the
    labels, and the names and files of the reported symbols. -/
structure SelfContained (names : SampleNames) (reports : List Reported) (p : Profile) : Prop where
  closed : p.Closed
  sampleType : ∃ type unit, p.sampleType = [{ type, unit }] ∧ Denotes p.stringTable type names.type ∧
    Denotes p.stringTable unit names.unit
  labels : List.Forall₂ (fun reported sample => ∃ key str, sample.label = [{ key, str }] ∧
    Denotes p.stringTable key names.label ∧ Denotes p.stringTable str (hex reported.label)) reports p.sample
  functions : ∀ func ∈ p.function, ∃ reported ∈ reports, ∃ symbol ∈ reported.frames,
    (∃ loc ∈ p.location, loc.id = func.id ∧ loc.address = symbol.address) ∧
    Denotes p.stringTable func.systemName symbol.name ∧ Denotes p.stringTable func.filename symbol.fileName

theorem ProfileOf.selfContained {names : SampleNames} {done : List Reported} {pushed : List Symbol} {p : Profile}
    (h : ProfileOf names done pushed p) : SelfContained names done p where
  closed := h.closed
  sampleType := h.sampleType
  labels := h.sample.imp fun _ _ hof => hof.label
  functions func hfunc := by
    obtain ⟨i, symbol, hget, hof⟩ := h.function_of_mem hfunc
    obtain ⟨reported, hreported, hsymbol⟩ := h.reported symbol (List.mem_of_getElem? hget)
    have hloc : locationOf i symbol ∈ p.location := List.mem_of_getElem? (h.location_getElem? hget)
    exact ⟨reported, hreported, symbol, hsymbol, ⟨_, hloc, hof.id.symm, rfl⟩, hof.systemName, hof.filename⟩

/-! ### After the first build -/

theorem StringTable.index_insert_self (t : StringTable) (value : String) : (t.insert value).2.index value ≠ none := by
  unfold insert
  split
  · next hindex => simp [hindex]
  · simp

theorem StringTable.index_insert {t : StringTable} {k : String} (h : t.index k ≠ none) (value : String) :
    (t.insert value).2.index k ≠ none := by
  unfold insert
  split
  · exact h
  · dsimp only
    by_cases hk : k = value
    · simp [hk]
    · rwa [Function.update_of_ne hk]

/-- The string is in the index and not in the table. -/
def StringTable.Lost (t : StringTable) (k : String) : Prop := Intern.Lost t.index id t.table k

theorem StringTable.Lost.insert {t : StringTable} {k : String} (h : t.Lost k) (value : String) : (t.insert value).2.Lost k := by
  unfold StringTable.insert
  split
  · exact h
  · next hnew => exact Intern.Lost.push h value hnew _

theorem StringTable.Lost.not_denotes {t : StringTable} {k : String} (h : t.Lost k) (i : Int) : ¬Denotes t.table i k := by
  rintro ⟨n, -, hget⟩
  exact Intern.Lost.getElem?_ne h hget rfl

/-- A report that has been built: the type of its values is lost. The functions and the locations still grow together. -/
structure GperfReport.Rebuilt (names : SampleNames) (r : GperfReport) : Prop where
  length : r.locTable.length = r.funcTable.funcs.length
  lost : r.stringTable.Lost names.type

namespace GperfReport
variable {names : SampleNames} {r : GperfReport}

theorem Rebuilt.reportFrame (h : r.Rebuilt names) (symbol : Symbol) :
    ∃ ids r', r.reportFrame symbol = some (ids, r') ∧ r'.Rebuilt names := by
  cases hget : r.funcTable.get symbol with
  | some id =>
    by_cases hid : id = 0
    · exact ⟨[], r, by simp [GperfReport.reportFrame, hget, hid], h⟩
    · exact ⟨[id], r, by simp [GperfReport.reportFrame, hget, hid], h⟩
  | none =>
    have hindex : r.funcTable.index symbol.address = none := hget
    refine ⟨_, _, by simp only [GperfReport.reportFrame, hget, FnTable.push, hindex, Option.bind_eq_bind, Option.bind_some,
      h.length, if_true]; rfl, ?_, ?_⟩
    · simp [h.length]
    · exact (h.lost.insert _).insert _

theorem Rebuilt.reportFrames (h : r.Rebuilt names) (frames : List Symbol) :
    ∃ ids r', GperfReport.reportFrames frames r = some (ids, r') ∧ r'.Rebuilt names := by
  induction frames generalizing r with
  | nil => exact ⟨[], r, rfl, h⟩
  | cons symbol frames ih =>
    obtain ⟨ids, r₁, hframe, h₁⟩ := h.reportFrame symbol
    obtain ⟨ids', r₂, hframes, h₂⟩ := ih h₁
    exact ⟨ids ++ ids', r₂,
      by simp only [GperfReport.reportFrames, hframe, hframes, Option.bind_eq_bind, Option.bind_some], h₂⟩

theorem Rebuilt.report (h : r.Rebuilt names) (reported : Reported) :
    ∃ r', r.report names reported = some (r', true) ∧ r'.Rebuilt names := by
  obtain ⟨ids, r₁, hframes, h₁⟩ := h.reportFrames reported.frames
  exact ⟨_, report_of_frames hframes, h₁.length, (h₁.lost.insert _).insert _⟩

/-- Whatever is built, it is then drained. -/
theorem rebuilt_build (names : SampleNames) (r : GperfReport) : (r.build names).2.Rebuilt names where
  length := rfl
  lost := .drained (StringTable.index_insert (r.stringTable.index_insert_self names.type) names.unit)

/-- The type of the values of a later profile is not in its string table. -/
theorem Rebuilt.not_selfContained (h : r.Rebuilt names) (reports : List Reported) :
    ¬SelfContained names reports (r.build names).1 := by
  intro hself
  obtain ⟨type, unit, -, htype, -⟩ := hself.sampleType
  exact ((h.lost.insert names.type).insert names.unit).not_denotes type htype

theorem Rebuilt.run (h : r.Rebuilt names) (calls : List ReportCall) (since : List Reported) :
    ∃ profiles, GperfReport.run names calls r since = some profiles ∧
      ((∀ x ∈ profiles, SelfContained names x.2 x.1) ↔ .build ∉ calls) := by
  induction calls generalizing r since with
  | nil => exact ⟨[], rfl, by simp⟩
  | cons call calls ih =>
    cases call with
    | report reported =>
      obtain ⟨r₁, hreport, h₁⟩ := h.report reported
      obtain ⟨profiles, hrun, hiff⟩ := ih h₁ (since ++ [reported])
      refine ⟨profiles, ?_, by simpa using hiff⟩
      simp only [GperfReport.run, hreport, Option.bind_eq_bind, Option.bind_some, hrun]
    | build =>
      obtain ⟨profiles, hrun, -⟩ := ih (rebuilt_build names r) []
      refine ⟨((r.build names).1, since) :: profiles, ?_, ?_⟩
      · simp only [GperfReport.run, hrun, Option.bind_eq_bind, Option.bind_some]
      · simp [h.not_selfContained since]

theorem Describes.run {done : List Reported} {pushed : List Symbol} (h : r.Describes names done pushed)
    (calls : List ReportCall) : ∃ profiles, GperfReport.run names calls r done = some profiles ∧
      ((∀ x ∈ profiles, SelfContained names x.2 x.1) ↔ calls.count .build ≤ 1) := by
  induction calls generalizing r done pushed with
  | nil => exact ⟨[], rfl, by simp⟩
  | cons call calls ih =>
    cases call with
    | report reported =>
      obtain ⟨r₁, pushed₁, hreport, h₁⟩ := h.report reported
      obtain ⟨profiles, hrun, hiff⟩ := ih h₁
      refine ⟨profiles, ?_, ?_⟩
      · simp only [GperfReport.run, hreport, Option.bind_eq_bind, Option.bind_some, hrun]
      · rwa [List.count_cons_of_ne (by simp)]
    | build =>
      obtain ⟨profiles, hrun, hiff⟩ := (rebuilt_build names r).run calls []
      refine ⟨((r.build names).1, done) :: profiles, ?_, ?_⟩
      · simp only [GperfReport.run, hrun, Option.bind_eq_bind, Option.bind_some]
      · have hfirst := h.build.selfContained
        rw [List.forall_mem_cons, List.count_cons_self, Nat.succ_le_succ_iff, Nat.le_zero, List.count_eq_zero]
        exact ⟨fun hall => hiff.mp hall.2, fun hnone => ⟨hfirst, hiff.mpr hnone⟩⟩

end GperfReport

/-- For every sequence of reports and builds no assertion fails, and all profiles that are built are self-contained if and
    only if there is at most one. -/
theorem rebuild_iff (names : SampleNames) (calls : List ReportCall) :
    ∃ profiles, GperfReport.run names calls .new [] = some profiles ∧
      ((∀ x ∈ profiles, SelfContained names x.2 x.1) ↔ calls.count .build ≤ 1) :=
  GperfReport.Describes.new.run calls

/-- The same block is reported before each of two builds. -/
def reportTwice : List ReportCall :=
  let main : Symbol := { name := "main", address := 16, fileName := "main.rs", lineNo := 1, colNo := 1 }
  let reported : Reported := { label := 4096, value := 64, frames := [main] }
  [.report reported, .build, .report reported, .build]

theorem rebuilt_profile_empty : ∃ profiles p since,
    GperfReport.run GperfHeapProfilerReport.names reportTwice .new [] = some profiles ∧ (p, since) ∈ profiles ∧
      p.stringTable = [] ∧ p.location = [] ∧ (p.sample.map Sample.locationId) = [[1]] ∧
      ¬SelfContained GperfHeapProfilerReport.names since p := by
  refine ⟨_, _, _, rfl, List.mem_cons_of_mem _ List.mem_cons_self, rfl, rfl, rfl, fun h => ?_⟩
  exact absurd h.closed.first (by decide)

end Hala.Pprof
