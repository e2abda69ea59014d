/-
The check of a repository is exact, whatever is in its tables.

A well-formed repository follows parents without end nowhere. As there are finitely many commits, that is to say that no
commit is its own proper ancestor (`acyclic_iff`), and the search for cycles passes exactly then. Where the check fails,
what it names is there (`Violation.Occurs`, `occurs_of_check`). Both are put together with the parts of well-formedness
in `check_is_exact`.
-/
import Mathlib.Order.WellFoundedSet
import RepoTutor.Proofs.Repo.WalkLength

namespace RepoTutor.Repo

namespace Repository

/-! ## Cycles -/

/-- with finitely many commits, parents are followed without end only around a cycle -/
theorem acyclic_iff {r : Repository} : r.Acyclic ↔ ∀ id, ¬r.ProperAncestor id id := by
  refine ⟨Acyclic.irrefl, fun h => ?_⟩
  have hmissing : ∀ x, x ∉ r.commits.keys → Acc r.IsParent x := by
    intro x hx
    refine ⟨x, fun p hp => ?_⟩
    obtain ⟨c, hc, -⟩ := isParent_iff.1 hp
    exact absurd (Table.mem_keys.2 ⟨c, hc⟩) hx
  have : IsStrictOrder CommitId r.ProperAncestor := { irrefl := h, trans := fun _ _ _ => Relation.TransGen.trans }
  have hstored : {x | x ∈ r.commits.keys}.WellFoundedOn r.ProperAncestor := (List.finite_toSet _).wellFoundedOn
  refine ⟨fun id => ?_⟩
  by_cases hid : id ∈ r.commits.keys
  · refine hstored.induction hid (fun x _ ih => ⟨x, fun p hp => ?_⟩)
    by_cases hp' : p ∈ r.commits.keys
    · exact ih p hp' (.single hp)
    · exact hmissing p hp'
  · exact hmissing id hid

theorem checkAcyclicFrom_reports_cycle {r : Repository} {m : Colours} (h : r.Search m []) {roots : List CommitId}
    {v : Violation} (hv : r.checkAcyclicFrom m roots = .error v) : ∃ id, v = .cycle id ∧ r.ProperAncestor id id := by
  induction roots generalizing m with
  | nil => cases hv
  | cons root rest ih =>
    simp only [checkAcyclicFrom] at hv
    split at hv
    · exact ih h hv
    · split at hv
      · rename_i id hvisit
        cases hv
        exact ⟨id, rfl, visit_reports_cycle (h.start root) hvisit⟩
      · rename_i m' hvisit
        exact ih (visit_closes (h.start root) hvisit).1 hv

theorem checkAcyclic_reports_cycle {r : Repository} {v : Violation} (hv : r.checkAcyclic = .error v) :
    ∃ id, v = .cycle id ∧ r.ProperAncestor id id :=
  checkAcyclicFrom_reports_cycle (.nothing r) hv

end Repository

/-! ## What is reported -/

/-- that a repository has the fault which a violation names -/
def Violation.Occurs (r : Repository) : Violation → Prop
  | .blobIdMismatch key computed => key ≠ computed ∧ ∃ content, r.blobs.get? key = some content ∧ blobId content = computed
  | .commitIdMismatch key computed =>
    ∃ c, r.commits.get? key = some c ∧ c.computedId = computed ∧ ¬(key = c.id ∧ computed = c.id)
  | .tooManyParents key count => ∃ c, r.commits.get? key = some c ∧ c.parents.length = count ∧ 2 < count
  | .missingParent key p => r.IsParent p key ∧ r.commits.contains p = false
  | .missingBlob key path blob =>
    ∃ c, r.commits.get? key = some c ∧ c.tree.get? path = some blob ∧ r.blobs.contains blob = false
  | .danglingBranch name id => r.branches.get? name = some id ∧ r.commits.contains id = false
  | .danglingHead id => r.head = .detached id ∧ r.commits.contains id = false
  | .danglingMergeHead id => r.mergeHead = some id ∧ r.commits.contains id = false
  | .cycle id => r.ProperAncestor id id

theorem require_eq_error {holds : Bool} {v v' : Violation} : require holds v = .error v' ↔ holds = false ∧ v = v' := by
  unfold require
  cases holds <;> simp

/-- a failed check fails for some item -/
theorem checkEach_eq_error {α : Type} {f : α → Check} {l : List α} {v : Violation} (h : checkEach f l = .error v) :
    ∃ a ∈ l, f a = .error v := by
  induction l with
  | nil => cases h
  | cons a l ih =>
    rcases Except.bind_eq_error.1 h with h | ⟨-, -, h⟩
    · exact ⟨a, List.mem_cons_self, h⟩
    · obtain ⟨b, hb, h⟩ := ih h
      exact ⟨b, List.mem_cons_of_mem _ hb, h⟩

namespace Repository

variable {r : Repository} {v : Violation}

theorem occurs_of_checkCommit {id : CommitId} {c : Commit} (hc : r.commits.get? id = some c)
    (h : r.checkCommit (id, c) = .error v) : v.Occurs r := by
  unfold checkCommit at h
  dsimp only at h
  rcases Except.bind_eq_error.1 h with h | ⟨-, -, h⟩
  · obtain ⟨hid, rfl⟩ := require_eq_error.1 h
    exact ⟨c, hc, rfl, by simpa using hid⟩
  rcases Except.bind_eq_error.1 h with h | ⟨-, -, h⟩
  · obtain ⟨harity, rfl⟩ := require_eq_error.1 h
    exact ⟨c, hc, rfl, by simpa using harity⟩
  rcases Except.bind_eq_error.1 h with h | ⟨-, -, h⟩
  · obtain ⟨p, hp, h⟩ := checkEach_eq_error h
    obtain ⟨hmissing, rfl⟩ := require_eq_error.1 h
    exact ⟨isParent_iff.2 ⟨c, hc, hp⟩, hmissing⟩
  · obtain ⟨f, hf, h⟩ := checkEach_eq_error h
    obtain ⟨hmissing, rfl⟩ := require_eq_error.1 h
    exact ⟨c, hc, Table.get?_eq_some_iff.2 hf, hmissing⟩

/-- the last parts of the check -/
theorem occurs_of_checkRest
    (h : (match r.mergeHead with
      | some id => require (r.commits.contains id) (.danglingMergeHead id) >>= fun _ => r.checkAcyclic
      | none => r.checkAcyclic) = .error v) : v.Occurs r := by
  have hcycle : r.checkAcyclic = .error v → v.Occurs r := by
    intro h
    obtain ⟨id, rfl, hid⟩ := checkAcyclic_reports_cycle h
    exact hid
  split at h
  · rename_i id hmerge
    rcases Except.bind_eq_error.1 h with h | ⟨-, -, h⟩
    · obtain ⟨hmissing, rfl⟩ := require_eq_error.1 h
      exact ⟨hmerge, hmissing⟩
    · exact hcycle h
  · exact hcycle h

/-- **What the check reports is there.** -/
theorem occurs_of_check (h : r.check = .error v) : v.Occurs r := by
  unfold check at h
  rcases Except.bind_eq_error.1 h with h | ⟨-, -, h⟩
  · obtain ⟨e, he, h⟩ := checkEach_eq_error h
    obtain ⟨hid, rfl⟩ := require_eq_error.1 h
    exact ⟨by simpa using hid, e.2, Table.get?_eq_some_iff.2 he, rfl⟩
  rcases Except.bind_eq_error.1 h with h | ⟨-, -, h⟩
  · obtain ⟨e, he, h⟩ := checkEach_eq_error h
    exact occurs_of_checkCommit (Table.get?_eq_some_iff.2 he) h
  rcases Except.bind_eq_error.1 h with h | ⟨-, -, h⟩
  · obtain ⟨e, he, h⟩ := checkEach_eq_error h
    obtain ⟨hmissing, rfl⟩ := require_eq_error.1 h
    exact ⟨Table.get?_eq_some_iff.2 he, hmissing⟩
  dsimp only at h
  split at h
  · rename_i id hhead
    rcases Except.bind_eq_error.1 h with h | ⟨-, -, h⟩
    · obtain ⟨hmissing, rfl⟩ := require_eq_error.1 h
      exact ⟨hhead, hmissing⟩
    · exact occurs_of_checkRest h
  · exact occurs_of_checkRest h

/-- **The check is exact.** Whatever is in its tables, a repository passes the check exactly when every content is stored
under its identifier, every commit is stored under its own identifier, which is the one computed from it, has at most two
parents, all stored, and refers to stored contents only, branches, a detached HEAD and a pending merge are at stored
commits, and no commit is its own proper ancestor. What the check reports otherwise is there. The search for cycles ends
within two turns for every commit and every link to a parent; it passes exactly when no commit is its own proper ancestor,
and reports a commit that is. -/
theorem check_is_exact (r : Repository) :
    (r.check = .ok () ↔
        (∀ id content, r.blobs.get? id = some content → id = blobId content)
          ∧ (∀ id c, r.commits.get? id = some c → c.id = id ∧ c.computedId = id ∧ c.parents.length ≤ 2
              ∧ (∀ p ∈ c.parents, r.commits.contains p = true)
              ∧ ∀ path blob, c.tree.get? path = some blob → r.blobs.contains blob = true)
          ∧ (∀ name id, r.branches.get? name = some id → r.commits.contains id = true)
          ∧ (∀ id, r.head = .detached id → r.commits.contains id = true)
          ∧ (∀ id, r.mergeHead = some id → r.commits.contains id = true)
          ∧ ∀ id, ¬Relation.TransGen r.IsParent id id)
      ∧ (∀ v, r.check = .error v → v.Occurs r)
      ∧ r.checkAcyclicWithin (2 * (r.commits.size + r.links r.commits.keys)) = some r.checkAcyclic
      ∧ (r.checkAcyclic = .ok () ↔ ∀ id, ¬Relation.TransGen r.IsParent id id)
      ∧ ∀ v, r.checkAcyclic = .error v → ∃ id, v = .cycle id ∧ Relation.TransGen r.IsParent id id := by
  refine ⟨check_eq_ok.trans ⟨fun h => ?_, ?_⟩, fun v => occurs_of_check, r.checkAcyclicWithin_eq,
    checkAcyclic_eq_ok.trans acyclic_iff, fun v => checkAcyclic_reports_cycle⟩
  · refine ⟨h.blob, fun id c hc => ?_, h.branch, h.head, h.mergeHead, h.acyclic.irrefl⟩
    have hstored := h.commit id c hc
    exact ⟨hstored.key, hstored.content, hstored.arity, hstored.parents, hstored.blobs⟩
  · rintro ⟨hblobs, hcommits, hbranches, hhead, hmerge, hacyclic⟩
    refine ⟨hblobs, fun id c hc => ?_, hbranches, hhead, hmerge, acyclic_iff.2 hacyclic⟩
    obtain ⟨hkey, hcontent, harity, hparents, htree⟩ := hcommits id c hc
    exact ⟨hkey, hcontent, harity, hparents, htree⟩

/-- two commits that are each other's parent, stored under names that nothing was computed for -/
def entwined : Repository :=
  let child (id parent : CommitId) : Commit := ⟨id, [parent], defaultAuthor, 1, "", .empty⟩
  { Repository.new defaultBranch with commits := (Table.empty.insert "a" (child "a" "b")).insert "b" (child "b" "a") }

example : entwined.checkAcyclic = .error (.cycle "a") := by cbv

end Repository

end RepoTutor.Repo
