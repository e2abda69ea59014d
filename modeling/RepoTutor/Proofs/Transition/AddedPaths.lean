/-
What adding paths makes of the pending edits.

A specification without patterns selects the known paths that lie at it: files of HEAD and paths with an edit. Selected
edits are staged. A specification that has no edit itself is simulated, with a content of its own, if it is a file of
HEAD or if nothing known lies under it; whether it stands in the list once or twice, early or late, makes no difference,
for what the specifications select is collected first and done to the edits afterwards (`select_specs`). What this comes
to, path by path, is `AddsEdit`; it determines the edits (`AddsEdit.unique`), so the order of the specifications and their
repetition do not matter (`add_stages_exactly`).
-/
import RepoTutor.Proofs.Transition.Application
import RepoTutor.Proofs.Transition.Directories
import RepoTutor.Proofs.Transition.StagedCommit

namespace RepoTutor.Transition

open Command Repo

/-- a file of HEAD, or a path with a pending edit -/
def Known (r : Repository) (p : Path) : Prop := r.headTree.contains p = true ∨ r.edits.contains p = true

/-- whether a specification that has no edit is taken for a path: it is a file of HEAD, or no directory of known paths -/
def NamesFile (r : Repository) (spec : String) : Prop :=
  r.headTree.contains spec = true ∨ ∀ x, Known r x → ¬LiesUnder x spec

/-- whether adding paths simulates an edit of one that has none -/
structure Simulates (r : Repository) (specs : List String) (q : Path) : Prop where
  listed : q ∈ specs
  names : NamesFile r q
  differs : r.committedContent q ≠ some (simulatedContent q r.clock)

/-- what the edit of a path is after paths have been added: an edit at or under one of them is staged and keeps its
content, another stays as it is, and where there was none, there is one exactly for what is simulated -/
structure AddsEdit (r : Repository) (specs : List String) (q : Path) (after : Option Edit) : Prop where
  staged : ∀ e, r.edits.get? q = some e → (∃ spec ∈ specs, AtPath spec q) → after = some ⟨e.content, true⟩
  kept : ∀ e, r.edits.get? q = some e → (¬∃ spec ∈ specs, AtPath spec q) → after = some e
  simulated : r.edits.get? q = none → Simulates r specs q → after = some ⟨some (simulatedContent q r.clock), true⟩
  absent : r.edits.get? q = none → ¬Simulates r specs q → after = none

theorem AddsEdit.unique {r : Repository} {specs : List String} {q : Path} {after after' : Option Edit}
    (h : AddsEdit r specs q after) (h' : AddsEdit r specs q after') : after = after' := by
  cases hedit : r.edits.get? q with
  | some e =>
    by_cases hat : ∃ spec ∈ specs, AtPath spec q
    · rw [h.staged e hedit hat, h'.staged e hedit hat]
    · rw [h.kept e hedit hat, h'.kept e hedit hat]
  | none =>
    by_cases hsim : Simulates r specs q
    · rw [h.simulated hedit hsim, h'.simulated hedit hsim]
    · rw [h.absent hedit hsim, h'.absent hedit hsim]

/-! ## Selection -/

section Selection

variable {r : Repository} {candidates : List Path} {spec : String} {s : Selection} {p : Path}

theorem mem_candidates : p ∈ ascendingKeys (r.headTree.keys ++ r.edits.keys) ↔ Known r p := by
  rw [mem_ascendingKeys, List.mem_append, ← Table.contains_iff_mem_keys, ← Table.contains_iff_mem_keys, Known]

theorem mem_toStage_selectPaths (matched : List Path) :
    p ∈ (matched.foldl (selectPath r spec) s).toStage ↔ p ∈ s.toStage ∨ p ∈ matched ∧ r.edits.contains p = true := by
  induction matched generalizing s with
  | nil => simp
  | cons x matched ih =>
    rw [List.foldl_cons, ih, selectPath]
    split <;> grind

theorem mem_toSimulate_selectPaths (matched : List Path) :
    p ∈ (matched.foldl (selectPath r spec) s).toSimulate ↔
      p ∈ s.toSimulate ∨ p = spec ∧ p ∈ matched ∧ r.edits.contains p = false := by
  induction matched generalizing s with
  | nil => simp
  | cons x matched ih =>
    rw [List.foldl_cons, ih, selectPath]
    split <;> grind

variable (hcandidates : ∀ x, x ∈ candidates ↔ Known r x)

include hcandidates

theorem mem_matched : p ∈ candidates.filter (liesAt spec) ↔ Known r p ∧ AtPath spec p := by
  rw [List.mem_filter, hcandidates, liesAt_iff]

/-- **What one specification selects:** the edits at it to stage, and itself to simulate if it names a file. -/
theorem select_spec (hspec : isPattern spec = false) :
    ∃ s', selectSpec r candidates s spec = .ok s'
      ∧ (∀ p, p ∈ s'.toStage ↔ p ∈ s.toStage ∨ r.edits.contains p = true ∧ AtPath spec p)
      ∧ ∀ p, p ∈ s'.toSimulate ↔ p ∈ s.toSimulate ∨ p = spec ∧ r.edits.contains p = false ∧ NamesFile r p := by
  have hmatched : ∀ p, p ∈ candidates.filter (liesAt spec) ↔ Known r p ∧ AtPath spec p := fun p => mem_matched hcandidates
  unfold selectSpec matchPathspec
  rw [if_neg (by simp [hspec])]
  cases hlist : candidates.filter (liesAt spec) with
  | nil =>
    -- nothing known lies at the specification, so it is no known path itself
    have hnone : ∀ p, Known r p → ¬AtPath spec p := fun p hp hat =>
      absurd (hlist ▸ (hmatched p).2 ⟨hp, hat⟩) List.not_mem_nil
    refine ⟨{ s with toSimulate := s.toSimulate ++ [spec] }, if_neg (by simp [hspec]), fun p => ?_, fun p => ?_⟩
    · exact (or_iff_left (fun h => hnone p (Or.inr h.1) h.2)).symm
    · rw [List.mem_append, List.mem_singleton]
      refine or_congr_right ⟨fun h => ⟨h, ?_⟩, fun h => h.1⟩
      subst h
      exact ⟨Bool.eq_false_iff.2 (fun hedit => hnone p (Or.inr hedit) (Or.inl rfl)),
        Or.inr (fun x hx hunder => hnone x hx (Or.inr hunder))⟩
  | cons x rest =>
    refine ⟨_, rfl, fun p => ?_, fun p => ?_⟩
    · rw [mem_toStage_selectPaths, ← hlist, hmatched]
      exact or_congr_right ⟨fun h => ⟨h.2, h.1.2⟩, fun h => ⟨⟨Or.inr h.1, h.2⟩, h.1⟩⟩
    · rw [mem_toSimulate_selectPaths, ← hlist, hmatched]
      refine or_congr_right (and_congr_right (fun hp => ?_))
      subst hp
      constructor
      · rintro ⟨⟨hknown, -⟩, hedit⟩
        exact ⟨hedit, Or.inl (hknown.resolve_right (by simp [hedit]))⟩
      · rintro ⟨hedit, hhead | hunder⟩
        · exact ⟨⟨Or.inl hhead, Or.inl rfl⟩, hedit⟩
        · -- what is selected does not lie under the specification, so it is the specification
          obtain ⟨hx, hat⟩ := (hmatched x).1 (hlist ▸ List.mem_cons_self)
          obtain rfl := hat.resolve_right (hunder x hx)
          exact ⟨⟨hx, Or.inl rfl⟩, hedit⟩

/-- what all specifications select together -/
theorem select_specs {specs : List String} (hspecs : ∀ spec ∈ specs, isPattern spec = false) :
    ∃ s', specs.foldlM (selectSpec r candidates) s = .ok s'
      ∧ (∀ p, p ∈ s'.toStage ↔
          p ∈ s.toStage ∨ r.edits.contains p = true ∧ ∃ spec ∈ specs, AtPath spec p)
      ∧ ∀ p, p ∈ s'.toSimulate ↔ p ∈ s.toSimulate ∨ p ∈ specs ∧ r.edits.contains p = false ∧ NamesFile r p := by
  induction specs generalizing s with
  | nil => exact ⟨s, rfl, by simp, by simp⟩
  | cons spec specs ih =>
    rw [List.forall_mem_cons] at hspecs
    obtain ⟨s₁, hs₁, hstage₁, hsimulate₁⟩ := select_spec (s := s) hcandidates hspecs.1
    obtain ⟨s₂, hs₂, hstage₂, hsimulate₂⟩ := ih (s := s₁) hspecs.2
    refine ⟨s₂, by rw [List.foldlM_cons, hs₁]; exact hs₂, fun p => ?_, fun p => ?_⟩
    · rw [hstage₂, hstage₁, or_assoc, ← and_or_left]
      simp only [List.mem_cons, exists_eq_or_imp]
    · rw [hsimulate₂, hsimulate₁, or_assoc, ← or_and_right, List.mem_cons]

end Selection

/-! ## The edits afterwards -/

/-- simulated edits do not depend on each other -/
theorem get?_simulateEdits (paths : List Path) (r : Repository) (q : Path) :
    (paths.foldl simulateEdit r).edits.get? q =
      if q ∈ paths then
        (if r.committedContent q = some (simulatedContent q r.clock) then none
          else some ⟨some (simulatedContent q r.clock), true⟩)
      else r.edits.get? q := by
  induction paths generalizing r with
  | nil => simp
  | cons path paths ih =>
    have hsame := editsOnly_setEdit r path (some (simulatedContent path r.clock)) true
    have hcommitted := Repository.committedContent_editsOnly hsame q
    rw [List.foldl_cons, simulateEdit, ih, hcommitted, hsame.clock, Repository.get?_setEdit]
    by_cases hq : q ∈ paths
    · simp [hq]
    · by_cases hpath : path = q
      · subst hpath
        simp [hq]
      · simp [hq, hpath, Ne.symm hpath]

/-- staging and simulating what is selected comes to `AddsEdit` -/
theorem addsEdit_of_selected {r : Repository} {specs : List String} {s : Selection} {q : Path}
    (hstage : q ∈ s.toStage ↔ r.edits.contains q = true ∧ ∃ spec ∈ specs, AtPath spec q)
    (hsimulate : q ∈ s.toSimulate ↔ q ∈ specs ∧ r.edits.contains q = false ∧ NamesFile r q) :
    AddsEdit r specs q ((s.toSimulate.foldl simulateEdit (r.markStaged true s.toStage.contains)).edits.get? q) := by
  have hmarked := editsOnly_markStaged r true s.toStage.contains
  rw [get?_simulateEdits, Repository.committedContent_editsOnly hmarked, hmarked.clock, Repository.get?_markStaged]
  have hedit : r.edits.contains q = (r.edits.get? q).isSome := rfl
  cases hq : r.edits.get? q with
  | some e =>
    -- a path with an edit is staged or left, never simulated
    rw [hq] at hedit
    have hfresh : q ∉ s.toSimulate := fun h => by simp [(hsimulate.1 h).2.1] at hedit
    rw [if_neg hfresh, Option.map_some]
    exact {
      staged := fun e' he' hat => by
        cases hq.symm.trans he'
        rw [if_pos (List.contains_iff_mem.2 (hstage.2 ⟨hedit, hat⟩))]
      kept := fun e' he' hat => by
        cases hq.symm.trans he'
        rw [if_neg (fun h => hat (hstage.1 (List.contains_iff_mem.1 h)).2)]
      simulated := fun h _ => by simp [hq] at h
      absent := fun h _ => by simp [hq] at h }
  | none =>
    rw [hq] at hedit
    rw [Option.map_none]
    exact {
      staged := fun e' he' _ => by simp [hq] at he'
      kept := fun e' he' _ => by simp [hq] at he'
      simulated := fun _ h => by rw [if_pos (hsimulate.2 ⟨h.listed, hedit, h.names⟩), if_neg h.differs]
      absent := fun _ h => by
        split
        · rename_i hmem
          obtain ⟨hlisted, -, hnames⟩ := hsimulate.1 hmem
          rw [if_pos (by_contra fun hdiffers => h ⟨hlisted, hnames, hdiffers⟩)]
        · rfl }

/-- **Adding paths does to every edit what `AddsEdit` says,** and to nothing else. -/
theorem add_edits (r : Repository) {specs : List String} (hspecs : ∀ spec ∈ specs, isPattern spec = false) :
    ∃ r', add r specs false = .ok (silently r') ∧ EditsOnly r r' ∧ ∀ q, AddsEdit r specs q (r'.edits.get? q) := by
  obtain ⟨s, hs, hstage, hsimulate⟩ := select_specs (s := ⟨[], []⟩) (fun x => mem_candidates (r := r) (p := x)) hspecs
  simp only [List.not_mem_nil, false_or] at hstage hsimulate
  refine ⟨s.toSimulate.foldl simulateEdit (r.markStaged true s.toStage.contains), ?_, ?_, fun q => ?_⟩
  · simp only [add, Bool.false_eq_true, if_false, hs]
    rfl
  · exact (editsOnly_markStaged r true _).trans (.foldl (fun r p => editsOnly_setEdit r p _ _) _ _)
  · exact addsEdit_of_selected (hstage q) (hsimulate q)

/-- what adding paths does to an edit is told by the edit, by whether it is at one of them and by whether it is simulated -/
theorem AddsEdit.congr {r r' : Repository} {specs specs' : List String} {q : Path} {after : Option Edit}
    (hedit : r'.edits.get? q = r.edits.get? q) (hclock : r'.clock = r.clock)
    (hat : (∃ spec ∈ specs', AtPath spec q) ↔ ∃ spec ∈ specs, AtPath spec q)
    (hsim : Simulates r' specs' q ↔ Simulates r specs q) (h : AddsEdit r specs q after) : AddsEdit r' specs' q after where
  staged e he hq := h.staged e (hedit ▸ he) (hat.1 hq)
  kept e he hq := h.kept e (hedit ▸ he) (fun hq' => hq (hat.2 hq'))
  simulated hnone hq := by
    rw [hclock]
    exact h.simulated (hedit ▸ hnone) (hsim.1 hq)
  absent hnone hq := h.absent (hedit ▸ hnone) (fun hq' => hq (hsim.2 hq'))

/-- only the set of specifications matters -/
theorem AddsEdit.sameSpecs {r : Repository} {specs specs' : List String} (hsame : ∀ spec, spec ∈ specs' ↔ spec ∈ specs)
    {q : Path} {after : Option Edit} (h : AddsEdit r specs q after) : AddsEdit r specs' q after :=
  h.congr rfl rfl (exists_congr (fun spec => and_congr_left' (hsame spec)))
    ⟨fun hq => ⟨(hsame q).1 hq.listed, hq.names, hq.differs⟩, fun hq => ⟨(hsame q).2 hq.listed, hq.names, hq.differs⟩⟩

/-- **Adding paths succeeds, does to every edit what `AddsEdit` says and nothing else,** whatever the order of the
specifications and however often one is repeated. -/
theorem add_stages_exactly {r : Repository} (hcheck : r.check = .ok ()) {specs : List String}
    (hspecs : ∀ spec ∈ specs, isPattern spec = false) :
    ∃ o, apply r (.add specs false) = .ok o ∧ o.output = .message [] ∧ EditsOnly r o.state
      ∧ (∀ q, AddsEdit r specs q (o.state.edits.get? q))
      ∧ ∀ specs', (∀ spec, spec ∈ specs' ↔ spec ∈ specs) → apply r (.add specs' false) = .ok o := by
  have hw := Repository.check_eq_ok.1 hcheck
  obtain ⟨r', hadd, hsame, hedits⟩ := add_edits r hspecs
  refine ⟨silently r', apply_of_same hw hadd hsame.commits, rfl, hsame, hedits, fun specs' hmem => ?_⟩
  obtain ⟨r'', hadd', hsame', hedits'⟩ := add_edits r (fun spec h => hspecs spec ((hmem spec).1 h))
  obtain rfl : r'' = r' := hsame.eq_of_edits hsame' (fun q => (hedits' q).unique ((hedits q).sameSpecs hmem))
  exact apply_of_same hw hadd' hsame'.commits

/-- beside the file that HEAD has, two edits that are not staged, one of them in a directory -/
def sorting : Repository :=
  { filed with edits := (Table.empty.insert "c" ⟨some "2\n", false⟩).insert "d/b" ⟨some "2\n", false⟩ }

theorem sorting_editsOnly : EditsOnly filed sorting := .of_edits filed _

theorem sorting_accepted : sorting.check = .ok () :=
  Repository.check_eq_ok.2 (filed_cleanRun.reachable.wellFormed.editsOnly sorting_editsOnly)

theorem sorting_headTree_contains (p : Path) : sorting.headTree.contains p = true ↔ p = "a" := by
  rw [sorting_editsOnly.headTree, filed_headTree, Table.contains, get?_filingCommit_tree]
  split <;> simp_all [eq_comm]

theorem sorting_committedContent (p : Path) : sorting.committedContent p = if "a" = p then some "1\n" else none := by
  rw [Repository.committedContent_editsOnly sorting_editsOnly, filed_committedContent]

theorem sorting_edits (p : Path) :
    sorting.edits.get? p = if "d/b" = p ∨ "c" = p then some ⟨some "2\n", false⟩ else none := by
  by_cases hdirectory : "d/b" = p <;> by_cases hfile : "c" = p <;> simp [sorting, Table.get?_insert, hdirectory, hfile]

/-- a directory, a file that HEAD has and a new one are named, the directory twice -/
theorem sorting_adds :
    ∃ o, apply sorting (.add ["d", "a", "new", "d/"] false) = .ok o
      ∧ apply sorting (.add ["d/", "new", "d", "a", "new"] false) = .ok o
      ∧ o.state.edits.get? "d/b" = some ⟨some "2\n", true⟩ ∧ o.state.edits.get? "c" = some ⟨some "2\n", false⟩
      ∧ o.state.edits.get? "a" = some ⟨some "a (revision 3)\n", true⟩
      ∧ o.state.edits.get? "new" = some ⟨some "new (revision 3)\n", true⟩ ∧ o.state.edits.get? "d" = none := by
  obtain ⟨o, ho, -, -, hedits, horder⟩ := add_stages_exactly sorting_accepted
    (show ∀ spec ∈ ["d", "a", "new", "d/"], isPattern spec = false by decide)
  have hunder : LiesUnder "d/b" "d" := liesUnder_iff.2 (by decide)
  have hnew : ∀ x, Known sorting x → ¬LiesUnder x "new" := by
    intro x hx
    rw [Known, sorting_headTree_contains, Table.contains, sorting_edits, liesUnder_iff] at *
    obtain rfl | rfl | rfl : x = "a" ∨ x = "d/b" ∨ x = "c" := by
      refine hx.imp_right (fun h => ?_)
      split at h
      · rename_i heq
        exact heq.imp Eq.symm Eq.symm
      · cases h
    all_goals decide
  have hsame : ∀ spec, spec ∈ ["d/", "new", "d", "a", "new"] ↔ spec ∈ ["d", "a", "new", "d/"] := by
    simp only [List.mem_cons, List.not_mem_nil]
    tauto
  refine ⟨o, ho, horder _ hsame, ?_, ?_, ?_, ?_, ?_⟩
  · exact (hedits "d/b").staged _ (sorting_edits _) ⟨"d", by decide, Or.inr hunder⟩
  · refine (hedits "c").kept _ (sorting_edits _) ?_
    simp only [AtPath, liesUnder_iff]
    decide
  · refine (hedits "a").simulated (sorting_edits _) ⟨by decide, Or.inl ((sorting_headTree_contains _).2 rfl), ?_⟩
    rw [sorting_committedContent]
    decide
  · refine (hedits "new").simulated (sorting_edits _) ⟨by decide, Or.inr hnew, ?_⟩
    rw [sorting_committedContent]
    simp
  · refine (hedits "d").absent (sorting_edits _) (fun h => h.names.elim (fun hd => ?_) (fun hd => ?_))
    · exact absurd ((sorting_headTree_contains _).1 hd) (by decide)
    · exact hd "d/b" (Or.inr (by rw [Table.contains, sorting_edits]; rfl)) hunder

end RepoTutor.Transition
