/-
Stores as registers with versions.

What a store has to do is told by one register for each session (`Rows.Answers`, `Rows.after`): a session is loaded as its
row and the version of its practice ask for, a save replaces the row unless that is of another version, a reset begins a
new row, and a list has the learner's rows in ascending order. The store in memory and the archive hold the same rows
after any calls (`Holds`), the archive also when it is read from its file again (`Archive.ofText?_toText`). A call leads
from stores that hold the same rows to such stores (`Holds.perform`), so both answer every sequence of calls as the
register does, apart from the practice that a loaded snapshot names (`stores_follow_register`). What a single call may
change in either of them is stated by `Limited`.
-/
import RepoTutor.Proofs.Repo.Texts
import RepoTutor.Proofs.Store.Faithful
import RepoTutor.Store.ArchiveText

namespace RepoTutor.Store

open Repo
open Json (Value)

/-! ## The archive in its file -/

theorem Row.ofJson?_toJson {row : Row} (h : row.version < wordCount 32) : ofJson? row.toJson = some row := by
  obtain ⟨version, state, history⟩ := row
  have hversion : Value.nat32? (Value.ofNat version) = some version := by
    simpa [Value.nat32?, Value.ofNat, Value.natBelow?] using h
  cases state <;>
    simp [ofJson?, toJson, Value.record?, Json.occurrences, Json.first?, Json.Record.required, Json.Record.optional,
      Value.ofOption, Value.str?, hversion]

theorem Row.readable_toJson (depth : Nat) {row : Row} (h : row.version < wordCount 32) :
    Value.Readable (depth + 1) row.toJson := by
  have hversion : row.version < wordCount 64 := Nat.lt_trans h (by decide)
  refine .obj ?_
  simp only [List.forall_mem_cons, List.not_mem_nil, IsEmpty.forall_iff, implies_true, and_true]
  refine ⟨.nat _ hversion, ?_, .str _ _⟩
  cases row.state with
  | none => exact .null _
  | some text => exact .str _ text

/-- **An archive is read from its file as it was written.** -/
theorem Archive.ofText?_toText {a : Archive} (h : ∀ key row, a.rows.get? key = some row → row.version < wordCount 32) :
    ofText? a.toText = some a := by
  have hrow : ∀ learner t, a.rows.learners.get? learner = some t → ∀ practice row, t.get? practice = some row →
      row.version < wordCount 32 := by
    intro learner t ht practice row hrow
    refine h ⟨learner, practice⟩ row ?_
    rw [KeyTable.get?, KeyTable.ofLearner, ht]
    exact hrow
  have htable : Value.tableOf? (Value.tableOf? Row.ofJson?) (Value.ofTable (Value.ofTable Row.toJson) a.rows.learners) =
      some a.rows.learners :=
    Value.tableOf?_ofTable (fun learner t ht =>
      Value.tableOf?_ofTable (fun practice row hr => Row.ofJson?_toJson (hrow learner t ht practice row hr)))
  have hparse : Value.parse? a.toText = some (Value.ofTable (Value.ofTable Row.toJson) a.rows.learners) :=
    Json.parse?_pretty (Value.readable_ofTable (fun learner t ht =>
      Value.readable_ofTable (fun practice row hr => Row.readable_toJson 124 (hrow learner t ht practice row hr))))
  have hfilled : a.toText.isEmpty = false := by
    rw [Bool.eq_false_iff]
    intro hempty
    rw [String.isEmpty_iff.1 hempty] at hparse
    cases hparse
  rw [ofText?, hfilled, hparse]
  simp [htable]

/-! ## Calls and answers -/

/-- a call on a store -/
inductive StoreCall where
  | load (key : SessionKey) (current : Nat)
  | save (key : SessionKey) (s : Snapshot)
  | reset (key : SessionKey) (version : Nat)
  | list (learner : String)
  /-- close the store and open it again -/
  | reopen

/-- what a store answers to a call -/
inductive StoreAnswer where
  | loaded (found : LoadOutcome)
  | saved
  | begun (s : Snapshot)
  | listed (practices : List (String × Nat))
  | reopened
  | failed (e : StoreError)

namespace StoreCall

/-- the session that a call is about -/
def key? : StoreCall → Option SessionKey
  | load key _ => some key
  | save key _ => some key
  | reset key _ => some key
  | list _ => none
  | reopen => none

def writes : StoreCall → Bool
  | save _ _ => true
  | reset _ _ => true
  | _ => false

/-- versions are 32-bit words, and repositories pass the check and have 64-bit words -/
def Fits : StoreCall → Prop
  | save _ s => s.version < wordCount 32 ∧ ∀ r, s.state = some r → r.check = .ok () ∧ FitsWords r
  | reset _ version => version < wordCount 32
  | _ => True

section Perform

variable {σ : Type} [Backend σ] [Reopens σ]

/-- the answer of a store, and the store afterwards -/
def perform (store : σ) : StoreCall → StoreAnswer × σ
  | load key current =>
    match Backend.load store key current with
    | .ok found => (.loaded found, store)
    | .error e => (.failed e, store)
  | save key s =>
    match Backend.save store key s with
    | (.ok (), store) => (.saved, store)
    | (.error e, store) => (.failed e, store)
  | reset key version =>
    match Backend.reset store key version with
    | (.ok s, store) => (.begun s, store)
    | (.error e, store) => (.failed e, store)
  | list learner =>
    match Backend.list store learner with
    | .ok practices => (.listed practices, store)
    | .error e => (.failed e, store)
  | reopen =>
    match Reopens.reopen store with
    | .ok store => (.reopened, store)
    | .error e => (.failed e, store)

/-- the store after calls -/
def after (store : σ) (calls : List StoreCall) : σ := calls.foldl (fun store call => (perform store call).2) store

/-- the answers to calls in their order -/
def answers (store : σ) : List StoreCall → List StoreAnswer
  | [] => []
  | call :: calls => (perform store call).1 :: answers (perform store call).2 calls

end Perform

end StoreCall

/-! ## The register -/

/-- a snapshot that names the practice of its session -/
def Snapshot.under (key : SessionKey) (s : Snapshot) : Snapshot := { s with practiceId := key.practice }

/-- an answer whose snapshot names the practice of the call -/
def StoreAnswer.under : StoreCall → StoreAnswer → StoreAnswer
  | .load key _, .loaded (.ready s) => .loaded (.ready (s.under key))
  | _, answer => answer

namespace Rows

/-- every snapshot names the practice of its session -/
def under (rows : Rows) : Rows := fun key => (rows key).map (·.under key)

/-- a learner's practices and their versions, in ascending order -/
def Lists (rows : Rows) (learner : String) (practices : List (String × Nat)) : Prop :=
  Ascending practices
    ∧ ∀ practice version, (practice, version) ∈ practices ↔ ∃ s, rows ⟨learner, practice⟩ = some s ∧ s.version = version

/-- how the register answers -/
def Answers (rows : Rows) : StoreCall → StoreAnswer → Prop
  | .load key current, answer => answer = .loaded (rows.find key current)
  | .save key s, answer =>
    match rows key with
    | none => answer = .saved
    | some old =>
      if old.version = s.version then answer = .saved
      else answer = .failed (.versionConflict key old.version s.version)
  | .reset key version, answer => answer = .begun (.empty key.practice version)
  | .list learner, answer => ∃ practices, answer = .listed practices ∧ rows.Lists learner practices
  | .reopen, answer => answer = .reopened

/-- the register after a call -/
def after (rows : Rows) : StoreCall → Rows
  | .save key s =>
    match rows key with
    | none => rows.set key s
    | some old => if old.version = s.version then rows.set key s else rows
  | .reset key version => rows.set key (.empty key.practice version)
  | _ => rows

/-- answers to calls in their order -/
def Follows (rows : Rows) : List StoreCall → List StoreAnswer → Prop
  | [], answers => answers = []
  | call :: calls, answers =>
    ∃ answer rest, answers = answer :: rest ∧ rows.Answers call answer ∧ (rows.after call).Follows calls rest

theorem save_taken {rows : Rows} {key : SessionKey} {s : Snapshot}
    (h : ∀ old, rows key = some old → old.version = s.version) :
    rows.Answers (.save key s) .saved ∧ rows.after (.save key s) = rows.set key s := by
  rw [Answers, after]
  cases hold : rows key with
  | none => exact ⟨rfl, rfl⟩
  | some old =>
    dsimp only
    rw [if_pos (h old hold), if_pos (h old hold)]
    exact ⟨rfl, rfl⟩

theorem save_refused {rows : Rows} {key : SessionKey} {s old : Snapshot} (hold : rows key = some old)
    (h : old.version ≠ s.version) :
    rows.Answers (.save key s) (.failed (.versionConflict key old.version s.version))
      ∧ rows.after (.save key s) = rows := by
  rw [Answers, after, hold]
  dsimp only
  rw [if_neg h, if_neg h]
  exact ⟨rfl, rfl⟩

end Rows

/-! ## Both stores -/

theorem Rows.under_set (rows : Rows) (key : SessionKey) (s : Snapshot) :
    (rows.set key s).under = rows.under.set key (s.under key) := by
  funext other
  by_cases hother : other = key
  · subst hother
    rw [under, set_same, set_same]
    rfl
  · rw [under, set_other rows s hother, set_other rows.under _ hother]
    rfl

theorem Rows.find_under (rows : Rows) (key : SessionKey) (current : Nat) :
    StoreAnswer.loaded (rows.under.find key current) =
      (StoreAnswer.loaded (rows.find key current)).under (.load key current) := by
  unfold find under
  cases rows key with
  | none => rfl
  | some s =>
    show StoreAnswer.loaded (if s.version = current then _ else _) = _
    by_cases hversion : s.version = current
    · simp [hversion, StoreAnswer.under]
    · simp [hversion, StoreAnswer.under, Snapshot.under]

/-- versions of a learner's rows in a table -/
theorem lists_versions {α : Type} {t : KeyTable α} {rows : Rows} {f : Snapshot → α} {version : α → Nat}
    (h : ∀ key, t.get? key = (rows key).map f) (hversion : ∀ s, version (f s) = s.version) (learner : String) :
    rows.Lists learner ((t.ofLearner learner).map (fun _ row => version row)).entries := by
  refine ⟨Table.ascending _, fun practice v => ?_⟩
  rw [← Table.get?_eq_some_iff, Table.get?_map]
  show (t.get? ⟨learner, practice⟩).map _ = some v ↔ _
  rw [h, Option.map_map, Option.map_eq_some_iff]
  simp [hversion]

theorem Rows.Lists.unique {rows : Rows} {learner : String} {practices practices' : List (String × Nat)}
    (h : rows.Lists learner practices) (h' : rows.Lists learner practices') : practices = practices' :=
  Table.entries_eq_of_mem h.1 h'.1 (fun e => (h.2 e.1 e.2).trans (h'.2 e.1 e.2).symm)

/-- both stores hold the rows of the register, the archive under the practices of their sessions -/
structure Holds (m : MemoryStore) (a : Archive) (rows : Rows) : Prop where
  memory : m.Keeps rows
  archive : a.Keeps rows.under
  version : ∀ key s, rows key = some s → s.version < wordCount 32

namespace Holds

variable {m : MemoryStore} {a : Archive} {rows : Rows}

theorem empty : Holds .empty .empty .empty where
  memory _ := rfl
  archive := ⟨fun _ => rfl, fun _ _ h => by cases h⟩
  version _ _ h := by cases h

theorem memory_get? (h : Holds m a rows) (key : SessionKey) : m.rows.get? key = rows key :=
  (h.memory key).trans (congrFun Option.map_id _)

theorem archive_get? (h : Holds m a rows) (key : SessionKey) : a.rows.get? key = (rows key).map Row.ofSnapshot := by
  rw [h.archive.row, Rows.under, Option.map_map]
  rfl

/-- both stores take a snapshot -/
theorem insert (h : Holds m a rows) {key : SessionKey} {s : Snapshot} (hversion : s.version < wordCount 32)
    (hs : Storable key (s.under key)) :
    Holds ⟨m.rows.insert key s⟩ ⟨a.rows.insert key (.ofSnapshot s)⟩ (rows.set key s) where
  memory := h.memory.insert key s
  archive := by
    rw [Rows.under_set]
    exact h.archive.insert hs
  version other t ht := by
    by_cases hother : other = key
    · subst hother
      rw [Rows.set_same] at ht
      exact Option.some.inj ht ▸ hversion
    · rw [Rows.set_other rows s hother] at ht
      exact h.version other t ht

theorem reopen (h : Holds m a rows) : Archive.ofText? a.toText = some a := by
  refine Archive.ofText?_toText (fun key row hrow => ?_)
  rw [h.archive_get?] at hrow
  obtain ⟨s, hs, rfl⟩ := Option.map_eq_some_iff.1 hrow
  exact h.version key s hs

theorem list_memory (h : Holds m a rows) (learner : String) : rows.Lists learner (m.list learner) :=
  lists_versions h.memory (fun _ => rfl) learner

theorem list_archive (h : Holds m a rows) (learner : String) : rows.Lists learner (a.list learner) :=
  lists_versions h.archive_get? (fun _ => rfl) learner

/-- both stores take a snapshot of the version that they have, and both refuse another one -/
theorem perform_save_cases (h : Holds m a rows) (key : SessionKey) (s : Snapshot) :
    ((∀ old, rows key = some old → old.version = s.version)
        ∧ StoreCall.perform m (.save key s) = (.saved, ⟨m.rows.insert key s⟩)
        ∧ StoreCall.perform a (.save key s) = (.saved, ⟨a.rows.insert key (.ofSnapshot s)⟩))
      ∨ ∃ old, rows key = some old ∧ old.version ≠ s.version
        ∧ StoreCall.perform m (.save key s) = (.failed (.versionConflict key old.version s.version), m)
        ∧ StoreCall.perform a (.save key s) = (.failed (.versionConflict key old.version s.version), a) := by
  by_cases hversion : ∀ old, rows key = some old → old.version = s.version
  · have hunder : ∀ old, rows.under key = some old → old.version = s.version := by
      intro old hold
      obtain ⟨s', hs', rfl⟩ := Option.map_eq_some_iff.1 hold
      exact hversion s' hs'
    refine Or.inl ⟨hversion, ?_, ?_⟩
    · simp only [StoreCall.perform, Backend.save, MemoryStore.save_eq_ok h.memory hversion]
    · simp only [StoreCall.perform, Backend.save, Archive.save_eq_ok h.archive hunder]
  · push Not at hversion
    obtain ⟨old, hold, hother⟩ := hversion
    have hm : m.save key s = .error (.versionConflict key old.version s.version) := by
      rw [MemoryStore.save, h.memory_get?, hold]
      exact if_neg hother
    have ha : a.save key s = .error (.versionConflict key old.version s.version) := by
      rw [Archive.save, h.archive_get?, hold]
      exact if_neg hother
    refine Or.inr ⟨old, hold, hother, ?_, ?_⟩
    · simp only [StoreCall.perform, Backend.save, hm]
    · simp only [StoreCall.perform, Backend.save, ha]

theorem perform_reopen (h : Holds m a rows) : StoreCall.perform a .reopen = (.reopened, a) := by
  simp only [StoreCall.perform, Reopens.reopen, h.reopen]

/-- **A call is answered by both stores as by the register**, and they hold the same rows afterwards -/
theorem perform (h : Holds m a rows) {call : StoreCall} (hfits : call.Fits) :
    rows.Answers call (StoreCall.perform m call).1
      ∧ (StoreCall.perform a call).1 = (StoreCall.perform m call).1.under call
      ∧ Holds (StoreCall.perform m call).2 (StoreCall.perform a call).2 (rows.after call) := by
  cases call with
  | load key current =>
    have hm : StoreCall.perform m (.load key current) = (.loaded (rows.find key current), m) := by
      rw [← MemoryStore.load_eq_find h.memory]
      rfl
    have ha : StoreCall.perform a (.load key current) = (.loaded (rows.under.find key current), a) := by
      simp only [StoreCall.perform, Backend.load, Archive.load_eq_find h.archive]
    rw [hm, ha]
    exact ⟨rfl, rows.find_under key current, h⟩
  | save key s =>
    rcases h.perform_save_cases key s with ⟨hversion, hm, ha⟩ | ⟨old, hold, hversion, hm, ha⟩
    · have hs : Storable key (s.under key) :=
        ⟨rfl, fun r hr => Repository.check_eq_ok.1 (hfits.2 r hr).1, fun r hr => (hfits.2 r hr).2⟩
      obtain ⟨hanswer, hafter⟩ := Rows.save_taken hversion
      rw [hm, ha, hafter]
      exact ⟨hanswer, rfl, h.insert hfits.1 hs⟩
    · obtain ⟨hanswer, hafter⟩ := Rows.save_refused hold hversion
      rw [hm, ha, hafter]
      exact ⟨hanswer, rfl, h⟩
  | reset key version => exact ⟨rfl, rfl, h.insert hfits (.empty key version)⟩
  | list learner =>
    refine ⟨⟨_, rfl, h.list_memory learner⟩, ?_, h⟩
    exact congrArg StoreAnswer.listed ((h.list_archive learner).unique (h.list_memory learner))
  | reopen =>
    rw [h.perform_reopen]
    exact ⟨rfl, rfl, h⟩

end Holds

/-! ## Runs -/

/-- what a call may change among the rows of a store: only the row of its session, whose version only by a reset, and
nothing at all when it reads or fails -/
structure Limited {α : Type} (versionOf : α → Nat) (call : StoreCall) (answer : StoreAnswer) (t t' : KeyTable α) :
    Prop where
  elsewhere : ∀ key, call.key? ≠ some key → t'.get? key = t.get? key
  version : ∀ key row, t.get? key = some row → (∀ v, call ≠ .reset key v) →
    ∃ row', t'.get? key = some row' ∧ versionOf row' = versionOf row
  reading : call.writes = false → t' = t
  failing : ∀ e, answer = .failed e → t' = t

namespace Limited

variable {α : Type} {versionOf : α → Nat} {call : StoreCall} {answer : StoreAnswer} {t : KeyTable α}

theorem refl (versionOf : α → Nat) (call : StoreCall) (answer : StoreAnswer) (t : KeyTable α) :
    Limited versionOf call answer t t where
  elsewhere _ _ := rfl
  version _ row hrow _ := ⟨row, hrow, rfl⟩
  reading _ := rfl
  failing _ _ := rfl

theorem insert {key : SessionKey} {row : α} (hkey : call.key? = some key) (hwrites : call.writes = true)
    (hanswer : ∀ e, answer ≠ .failed e)
    (hversion : ∀ old, t.get? key = some old → (∀ v, call ≠ .reset key v) → versionOf row = versionOf old) :
    Limited versionOf call answer t (t.insert key row) where
  elsewhere other hother := by
    rw [KeyTable.get?_insert, if_neg]
    rintro rfl
    exact hother hkey
  version other old hold hreset := by
    rw [KeyTable.get?_insert]
    by_cases hother : key = other
    · subst hother
      exact ⟨row, if_pos rfl, hversion old hold hreset⟩
    · exact ⟨old, (if_neg hother).trans hold, rfl⟩
  reading hreads := by
    rw [hwrites] at hreads
    cases hreads
  failing e he := absurd he (hanswer e)

end Limited

namespace Holds

variable {m : MemoryStore} {a : Archive} {rows : Rows}

theorem limited (h : Holds m a rows) (call : StoreCall) :
    Limited Snapshot.version call (StoreCall.perform m call).1 m.rows (StoreCall.perform m call).2.rows
      ∧ Limited Row.version call (StoreCall.perform a call).1 a.rows (StoreCall.perform a call).2.rows := by
  cases call with
  | load key current =>
    have ha : (StoreCall.perform a (.load key current)).2 = a := by
      simp only [StoreCall.perform, Backend.load, Archive.load_eq_find h.archive]
    rw [ha]
    exact ⟨.refl .., .refl ..⟩
  | save key s =>
    rcases h.perform_save_cases key s with ⟨hversion, hm, ha⟩ | ⟨old, -, -, hm, ha⟩
    · rw [hm, ha]
      refine ⟨.insert rfl rfl (fun e => by simp) (fun old hold _ => ?_),
        .insert rfl rfl (fun e => by simp) (fun old hold _ => ?_)⟩
      · rw [h.memory_get?] at hold
        exact (hversion old hold).symm
      · rw [h.archive_get?] at hold
        obtain ⟨s', hs', rfl⟩ := Option.map_eq_some_iff.1 hold
        exact (hversion s' hs').symm
    · rw [hm, ha]
      exact ⟨.refl .., .refl ..⟩
  | reset key version =>
    exact ⟨.insert rfl rfl (fun e he => by cases he) (fun old _ hreset => absurd rfl (hreset version)),
      .insert rfl rfl (fun e he => by cases he) (fun old _ hreset => absurd rfl (hreset version))⟩
  | list learner => exact ⟨.refl .., .refl ..⟩
  | reopen =>
    rw [h.perform_reopen]
    exact ⟨.refl .., .refl ..⟩

/-- the answers to calls, and what both stores hold after them -/
theorem run (h : Holds m a rows) {calls : List StoreCall} (hfits : ∀ call ∈ calls, call.Fits) :
    rows.Follows calls (StoreCall.answers m calls)
      ∧ StoreCall.answers a calls = List.zipWith StoreAnswer.under calls (StoreCall.answers m calls)
      ∧ Holds (StoreCall.after m calls) (StoreCall.after a calls) (calls.foldl Rows.after rows) := by
  induction calls generalizing m a rows with
  | nil => exact ⟨rfl, rfl, h⟩
  | cons call calls ih =>
    obtain ⟨hanswer, hunder, hholds⟩ := h.perform (hfits call List.mem_cons_self)
    obtain ⟨hfollows, hlater, hlast⟩ := ih hholds (fun c hc => hfits c (List.mem_cons_of_mem _ hc))
    refine ⟨⟨_, _, rfl, hanswer, hfollows⟩, ?_, hlast⟩
    rw [StoreCall.answers, StoreCall.answers, hunder, hlater]
    rfl

end Holds

/-- **Both stores are one register with versions for each session.** The store in memory answers every sequence of calls as
the register does, and the archive, which may be closed and opened again, answers as the store in memory, apart from the
practice that a loaded snapshot names. After any calls both hold the rows of the register, and a further call changes at
most the row of its session, the version of that row only by a reset, and nothing when it reads or fails. -/
theorem stores_follow_register {calls : List StoreCall} (hfits : ∀ call ∈ calls, call.Fits) :
    let m := StoreCall.after MemoryStore.empty calls
    let a := StoreCall.after Archive.empty calls
    Rows.empty.Follows calls (StoreCall.answers MemoryStore.empty calls)
      ∧ StoreCall.answers Archive.empty calls =
        List.zipWith StoreAnswer.under calls (StoreCall.answers MemoryStore.empty calls)
      ∧ (∀ key, m.rows.get? key = calls.foldl Rows.after .empty key
        ∧ a.rows.get? key = (calls.foldl Rows.after .empty key).map Row.ofSnapshot)
      ∧ ∀ call, Limited Snapshot.version call (StoreCall.perform m call).1 m.rows (StoreCall.perform m call).2.rows
        ∧ Limited Row.version call (StoreCall.perform a call).1 a.rows (StoreCall.perform a call).2.rows := by
  intro m a
  obtain ⟨hfollows, hunder, hholds⟩ := Holds.empty.run hfits
  exact ⟨hfollows, hunder, fun key => ⟨hholds.memory_get? key, hholds.archive_get? key⟩, hholds.limited⟩

/-- a session that is saved under the name of another practice, found, and begun anew at the next version -/
def revisions : List StoreCall :=
  let key : SessionKey := ⟨"ann", "branching"⟩
  [.load key 1, .save key ⟨"merging", some marginal, 1, ["git log"]⟩, .reopen, .load key 1, .load key 2,
    .save key (.empty "branching" 2), .reset key 2, .list "ann"]

/-- the archive names the session's own practice -/
theorem archive_answers_revisions :
    (∀ call ∈ revisions, call.Fits) ∧ StoreCall.answers Archive.empty revisions =
      [.loaded (.fresh (.empty "branching" 1)), .saved, .reopened,
        .loaded (.ready ⟨"branching", some marginal, 1, ["git log"]⟩), .loaded (.resetRequired 1 2),
        .failed (.versionConflict ⟨"ann", "branching"⟩ 1 2), .begun (.empty "branching" 2),
        .listed [("branching", 2)]] := by
  have hfits : ∀ call ∈ revisions, call.Fits := by
    have hmarginal := Repository.check_eq_ok.2 marginal_wellFormed
    simp only [revisions, List.forall_mem_cons, List.not_mem_nil, IsEmpty.forall_iff, implies_true, and_true,
      StoreCall.Fits, true_and]
    refine ⟨⟨by decide, fun r hr => ?_⟩, ⟨by decide, fun r hr => ?_⟩, by decide⟩
    · cases hr
      exact ⟨hmarginal, marginal_fitsWords⟩
    · cases hr
  refine ⟨hfits, (stores_follow_register hfits).2.1.trans ?_⟩
  rfl

end RepoTutor.Store
