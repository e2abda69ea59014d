/-
A repository and its texts.

Reading first finds the shape of a repository and then checks it. What was written has the shape of what it was written
from, so a text of a repository is judged by the check alone (`ofText_of_parse?`); and whatever is read has passed the
check and has 64-bit words (`ofText_eq_ok`). So the repositories that can be read at all are those that are read back
from their own texts (`ofText_written`).
-/
import RepoTutor.Proofs.Repo.RoundTrip
import RepoTutor.Proofs.Transition.PendingMerge

namespace RepoTutor.Json

/-! ## What was read -/

theorem Record.defaulted_eq_some {α : Type} {r : Record} {name : String} {standard a : α} {read : Value → Option α}
    (h : r.defaulted name standard read = some a) : a = standard ∨ ∃ v, read v = some a := by
  unfold Record.defaulted at h
  split at h
  · exact Or.inl (Option.some.inj h).symm
  · exact Or.inr ⟨_, h⟩

theorem Record.required_eq_some {α : Type} {r : Record} {name : String} {a : α} {read : Value → Option α}
    (h : r.required name read = some a) : ∃ v, read v = some a := by
  obtain ⟨v, -, hread⟩ := Option.bind_eq_some_iff.1 h
  exact ⟨v, hread⟩

namespace Value

/-- every value of a table was read from a value -/
theorem tableOf?_values {α : Type} {read : Value → Option α} {v : Value} {t : Table α} (h : tableOf? read v = some t)
    {k : String} {a : α} (ha : t.get? k = some a) : ∃ v', read v' = some a := by
  cases v with
  | obj members =>
    obtain ⟨entries, hentries, rfl⟩ := Option.map_eq_some_iff.1 h
    have hread : some (k, a) ∈ entries.map some := List.mem_map_of_mem (Table.mem_of_get?_ofList ha)
    rw [← mapM_eq_some.1 hentries] at hread
    obtain ⟨m, -, hm⟩ := List.mem_map.1 hread
    obtain ⟨_, hvalue, heq⟩ := Option.map_eq_some_iff.1 hm
    cases heq
    exact ⟨m.2, hvalue⟩
  | _ => cases h

end Value

end RepoTutor.Json

namespace RepoTutor.Repo

open Json Json.Value

theorem Commit.timestamp_of_ofJson? {v : Value} {c : Commit} (h : Commit.ofJson? v = some c) :
    c.timestamp < wordCount 64 := by
  simp only [ofJson?, Option.bind_eq_bind, Option.bind_eq_some_iff, Option.pure_def, Option.some.injEq] at h
  obtain ⟨_, _, _, _, _, _, _, _, timestamp, htimestamp, _, _, _, _, rfl⟩ := h
  obtain ⟨_, hread⟩ := Record.required_eq_some htimestamp
  exact lt_of_natBelow? hread

namespace Repository

variable {r : Repository} {text : String}

theorem fitsWords_of_ofShape? {v : Value} (h : ofShape? v = some r) : FitsWords r := by
  simp only [ofShape?, Option.bind_eq_bind, Option.bind_eq_some_iff, Option.pure_def, Option.some.injEq] at h
  obtain ⟨_, _, commits, hcommits, _, _, _, _, _, _, _, _, _, _, clock, hclock, rfl⟩ := h
  constructor
  · rcases Record.defaulted_eq_some hclock with rfl | ⟨_, hread⟩
    · exact Nat.pow_pos (by decide)
    · exact lt_of_natBelow? hread
  · intro id c hc
    rcases Record.defaulted_eq_some hcommits with rfl | ⟨_, hread⟩
    · cases hc
    · obtain ⟨_, hcommit⟩ := tableOf?_values hread hc
      exact Commit.timestamp_of_ofJson? hcommit

/-- what is read from a text passes the check, and its numbers are 64-bit words -/
theorem ofText_eq_ok (h : ofText text = .ok r) : r.check = .ok () ∧ FitsWords r := by
  unfold ofText at h
  split at h
  · cases h
  · rename_i v _
    unfold ofJson at h
    split at h
    · cases h
    · rename_i shape hshape
      split at h
      · rename_i hcheck
        cases h
        exact ⟨hcheck, fitsWords_of_ofShape? hshape⟩
      · cases h

/-! ## What was written -/

/-- a text of a repository is judged by the check -/
theorem ofText_of_parse? (hwords : FitsWords r) (hparse : parse? text = some r.toJson) :
    ofText text = (r.check.mapError LoadError.violation).map (fun _ => r) := by
  rw [ofText, hparse]
  show ofJson r.toJson = _
  rw [ofJson, ofShape?_toJson hwords]
  dsimp only
  cases r.check <;> rfl

/-- **Exactly the repositories that pass the check are read, each from its own texts.** One that passes is read back from
its text, compact or indented, and nothing else is read from any text. Of one that does not pass, reading tells the
violation, and no two repositories have one text. -/
theorem ofText_written (r : Repository) :
    (r.check = .ok () ∧ FitsWords r → ofText r.toJson.compact = .ok r ∧ ofText r.toJson.pretty = .ok r)
      ∧ (∀ text, ofText text = .ok r → r.check = .ok () ∧ FitsWords r)
      ∧ (∀ v, r.check = .error v ∧ FitsWords r →
          ofText r.toJson.compact = .error (.violation v) ∧ ofText r.toJson.pretty = .error (.violation v))
      ∧ ∀ r', FitsWords r ∧ FitsWords r' → r'.toJson.compact = r.toJson.compact → r' = r := by
  have hcompact : FitsWords r → parse? r.toJson.compact = some r.toJson :=
    fun hwords => parse?_compact (readable_toJson 123 hwords)
  have hpretty : FitsWords r → parse? r.toJson.pretty = some r.toJson :=
    fun hwords => parse?_pretty (readable_toJson 123 hwords)
  refine ⟨?_, fun text => ofText_eq_ok, ?_, ?_⟩
  · rintro ⟨hcheck, hwords⟩
    rw [ofText_of_parse? hwords (hcompact hwords), ofText_of_parse? hwords (hpretty hwords), hcheck]
    exact ⟨rfl, rfl⟩
  · rintro v ⟨hcheck, hwords⟩
    rw [ofText_of_parse? hwords (hcompact hwords), ofText_of_parse? hwords (hpretty hwords), hcheck]
    exact ⟨rfl, rfl⟩
  · rintro r' ⟨hwords, hwords'⟩ htext
    have hparse := parse?_compact (readable_toJson 123 hwords')
    rw [htext, hcompact hwords] at hparse
    have hshape := ofShape?_toJson hwords'
    rw [← Option.some.inj hparse, ofShape?_toJson hwords] at hshape
    exact (Option.some.inj hshape).symm

end Repository

/-! ## At the limits -/

open Transition

/-- HEAD at a commit, a merge pending, a deleted file, a path and a content that need escapes, and the last clock tick -/
def marginal : Repository :=
  { drafting with
    head := .detached filingCommit.id
    edits := (Table.empty.insert "Ünïcode/\"文\"\\\t" ⟨none, true⟩).insert "b" ⟨some "\x00\x1f\x7f 𝄞\r\n", false⟩
    mergeHead := some olderCommit.id
    clock := wordCount 64 - 1 }

theorem marginal_wellFormed : WellFormed marginal := by
  have hfiling : drafting.commits.contains filingCommit.id = true :=
    Table.contains_eq_true.2 ⟨_, (get?_drafting_commits _).trans (if_pos rfl)⟩
  have holder : drafting.commits.contains olderCommit.id = true :=
    Table.contains_eq_true.2
      ⟨_, (get?_drafting_commits _).trans ((if_neg (Ne.symm olderCommit_ne_filing)).trans (if_pos rfl))⟩
  refine drafting_wellFormed.repoint rfl rfl drafting_wellFormed.branch (fun id hid => ?_) (fun id hid => ?_)
  · cases hid
    exact hfiling
  · cases hid
    exact holder

theorem marginal_fitsWords : FitsWords marginal := by
  refine ⟨by decide, fun id c hc => ?_⟩
  have hstored : drafting.commits.get? id = some c := hc
  rw [get?_drafting_commits] at hstored
  split at hstored
  · cases hstored
    decide
  · split at hstored
    · cases hstored
      decide
    · cases hstored

theorem marginal_is_read_back :
    marginal.check = .ok () ∧ FitsWords marginal ∧ Repository.ofText marginal.toJson.compact = .ok marginal
      ∧ Repository.ofText marginal.toJson.pretty = .ok marginal := by
  have hcheck : marginal.check = .ok () := Repository.check_eq_ok.2 marginal_wellFormed
  exact ⟨hcheck, marginal_fitsWords, (Repository.ofText_written marginal).1 ⟨hcheck, marginal_fitsWords⟩⟩

end RepoTutor.Repo
