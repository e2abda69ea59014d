/-
Walks over the commit graph.

All walks end on every repository, well-formed or not: each step takes a commit that was not seen before or shortens
what is left to do. `mergeBase` widens two histories in turn, one generation at a time with parents in order, and takes
the first commit seen from both sides.
-/
import RepoTutor.Repo.State

namespace RepoTutor.Repo

namespace Repository

/-- parents of a commit in order -/
def parentsOf (r : Repository) (id : CommitId) : List CommitId :=
  match r.commits.get? id with
  | some c => c.parents
  | none => []

/-- every identifier that is a commit or a parent of one -/
def mentioned (r : Repository) : List CommitId := r.commits.keys ++ r.commits.values.flatMap (·.parents)

/-- how many mentioned identifiers are outside a list -/
def unseen (r : Repository) (seen : List CommitId) : Nat := r.mentioned.countP (fun id => !seen.contains id)

/-! ## What is left becomes less -/

theorem mem_mentioned_of_parent {r : Repository} {id p : CommitId} (h : p ∈ r.parentsOf id) : p ∈ r.mentioned := by
  unfold parentsOf at h
  split at h
  · rename_i c hc
    refine List.mem_append_right _ (List.mem_flatMap.2 ⟨c, ?_, h⟩)
    exact List.mem_map.2 ⟨(id, c), Table.get?_eq_some_iff.1 hc, rfl⟩
  · simp at h

theorem mem_mentioned_of_parents_ne_nil {r : Repository} {id : CommitId} (h : r.parentsOf id ≠ []) :
    id ∈ r.mentioned := by
  unfold parentsOf at h
  split at h
  · rename_i c hc
    exact List.mem_append_left _ (List.mem_map.2 ⟨(id, c), Table.get?_eq_some_iff.1 hc, rfl⟩)
  · simp at h

theorem unseen_cons_le (r : Repository) (id : CommitId) (seen : List CommitId) :
    r.unseen (id :: seen) ≤ r.unseen seen := by
  refine List.countP_mono_left (fun x _ hx => ?_)
  simp only [List.contains_cons, Bool.not_or, Bool.and_eq_true] at hx
  exact hx.2

theorem countP_cons_lt {l : List CommitId} {id : CommitId} {seen : List CommitId} (hmem : id ∈ l)
    (hnew : seen.contains id = false) :
    l.countP (fun x => !(id :: seen).contains x) < l.countP (fun x => !seen.contains x) := by
  induction l with
  | nil => simp at hmem
  | cons a l ih =>
    have hle : l.countP (fun x => !(id :: seen).contains x) ≤ l.countP (fun x => !seen.contains x) := by
      refine List.countP_mono_left (fun x _ hx => ?_)
      simp only [List.contains_cons, Bool.not_or, Bool.and_eq_true] at hx
      exact hx.2
    by_cases h : a = id
    · subst h
      simp only [List.countP_cons, List.contains_cons, hnew]
      simp only [List.contains_cons] at hle
      simp
      simp at hle
      omega
    · have hmem' : id ∈ l := by
        rcases List.mem_cons.1 hmem with e | m
        · exact absurd e.symm h
        · exact m
      have := ih hmem'
      have hne : (a == id) = false := by simpa using h
      simp only [List.countP_cons, List.contains_cons, hne, Bool.false_or]
      simp only [List.contains_cons] at this
      omega

theorem unseen_cons_lt {r : Repository} {id : CommitId} {seen : List CommitId} (hmem : id ∈ r.mentioned)
    (hnew : seen.contains id = false) : r.unseen (id :: seen) < r.unseen seen :=
  countP_cons_lt hmem hnew

/-! ## Ancestry -/

/-- everything reachable from a queue, added to what is seen already -/
def walk (r : Repository) (seen : List CommitId) : List CommitId → List CommitId
  | [] => seen
  | id :: queue =>
    if seen.contains id then walk r seen queue
    else walk r (id :: seen) (queue ++ r.parentsOf id)
termination_by queue => (r.unseen seen, queue.length)
decreasing_by
  · exact Prod.Lex.right _ (by simp)
  · rename_i hnew
    by_cases hp : r.parentsOf id = []
    · rw [hp]
      have hle := r.unseen_cons_le id seen
      rcases Nat.lt_or_eq_of_le hle with hlt | heq
      · exact Prod.Lex.left _ _ hlt
      · rw [heq]
        exact Prod.Lex.right _ (by simp)
    · exact Prod.Lex.left _ _ (unseen_cons_lt (mem_mentioned_of_parents_ne_nil hp) (by simpa using hnew))

/-- every commit reachable from `start`, itself included -/
def ancestors (r : Repository) (start : CommitId) : List CommitId := r.walk [] [start]

/-- whether `ancestor` is reachable from `descendant`; a commit is its own ancestor -/
def isAncestor (r : Repository) (ancestor descendant : CommitId) : Bool :=
  ancestor == descendant || (r.ancestors descendant).contains ancestor

/-- add the ancestors of a root that is not covered yet -/
def cover (r : Repository) (covered : List CommitId) (root : CommitId) : List CommitId :=
  if covered.contains root then covered else covered ++ r.ancestors root

/-- where the walks over everything that is kept begin -/
def roots (r : Repository) : List CommitId :=
  r.branches.values ++ r.headId.toList ++ r.mergeHead.toList

/-- commits reachable from a branch, HEAD or a pending merge, ascending -/
def reachable (r : Repository) : List CommitId := ascendingKeys (r.roots.foldl r.cover [])

/-- later commits first; of one time, the smaller identifier -/
def isLaterOrEqual (a b : Commit) : Bool :=
  b.timestamp < a.timestamp || (a.timestamp == b.timestamp && a.id ≤ b.id)

/-- the history of a commit, most recent first -/
def history (r : Repository) (start : CommitId) : List Commit :=
  ((r.ancestors start).filterMap r.commits.get?).mergeSort isLaterOrEqual

/-! ## Merge base -/

/-- one of two histories that are widened in turn -/
structure Side where
  frontier : List CommitId
  seen : List CommitId

/-- the parents still to look at, against what the other side has seen: a hit, or what is seen and new after them -/
def scan (other : List CommitId) : List CommitId → List CommitId → List CommitId → CommitId ⊕ Side
  | [], seen, next => .inr ⟨next, seen⟩
  | p :: ps, seen, next =>
    if other.contains p then .inl p
    else if seen.contains p then scan other ps seen next
    else scan other ps (p :: seen) (next ++ [p])

/-- one generation further on one side -/
def widen (r : Repository) (side : Side) (other : List CommitId) : CommitId ⊕ Side :=
  scan other (side.frontier.flatMap r.parentsOf) side.seen []

theorem scan_progress {r : Repository} {other ps seen next : List CommitId} {side : Side}
    (hps : ∀ p ∈ ps, p ∈ r.mentioned) (h : scan other ps seen next = .inr side) :
    r.unseen side.seen ≤ r.unseen seen ∧ (side.frontier = next ∨ r.unseen side.seen < r.unseen seen) := by
  induction ps generalizing seen next with
  | nil =>
    simp only [scan, Sum.inr.injEq] at h
    subst h
    exact ⟨Nat.le_refl _, .inl rfl⟩
  | cons p ps ih =>
    have hrest : ∀ q ∈ ps, q ∈ r.mentioned := fun q hq => hps q (List.mem_cons_of_mem _ hq)
    simp only [scan] at h
    split at h
    · simp at h
    · split at h
      · exact ih hrest h
      · rename_i hseen
        have hlt := unseen_cons_lt (hps p (by simp)) (by simpa using hseen)
        have := (ih hrest h).1
        exact ⟨by omega, .inr (by omega)⟩

theorem widen_progress {r : Repository} {side side' : Side} {other : List CommitId}
    (h : r.widen side other = .inr side') :
    r.unseen side'.seen ≤ r.unseen side.seen ∧
      (side'.frontier = [] ∨ r.unseen side'.seen < r.unseen side.seen) :=
  scan_progress (fun _ hp => by
    obtain ⟨_, _, hp⟩ := List.mem_flatMap.1 hp
    exact mem_mentioned_of_parent hp) h

/-- widen the first side, then the second, until they meet or both are exhausted -/
def join (r : Repository) (a b : Side) : Option CommitId :=
  if a.frontier = [] ∧ b.frontier = [] then none
  else
    match _ha : r.widen a b.seen with
    | .inl hit => some hit
    | .inr a' =>
      match _hb : r.widen b a'.seen with
      | .inl hit => some hit
      | .inr b' => join r a' b'
termination_by (r.unseen a.seen + r.unseen b.seen, a.frontier.length + b.frontier.length)
decreasing_by
  rename_i hne
  have pa := widen_progress _ha
  have pb := widen_progress _hb
  by_cases hlt : r.unseen a'.seen + r.unseen b'.seen < r.unseen a.seen + r.unseen b.seen
  · exact Prod.Lex.left _ _ hlt
  · have heq : r.unseen a'.seen + r.unseen b'.seen = r.unseen a.seen + r.unseen b.seen := by omega
    have hfa : a'.frontier = [] := by
      rcases pa.2 with h | h
      · exact h
      · omega
    have hfb : b'.frontier = [] := by
      rcases pb.2 with h | h
      · exact h
      · omega
    rw [heq, hfa, hfb]
    refine Prod.Lex.right _ ?_
    rcases a with ⟨fa, sa⟩
    rcases b with ⟨fb, sb⟩
    cases fa with
    | nil =>
      cases fb with
      | nil => exact absurd ⟨rfl, rfl⟩ hne
      | cons _ _ => simp
    | cons _ _ => simp only [List.length_cons, List.length_nil]; omega

/-- a commit that both histories share, the one that alternating search meets first -/
def mergeBase (r : Repository) (a b : CommitId) : Option CommitId :=
  if a = b then some a else r.join ⟨[a], [a]⟩ ⟨[b], [b]⟩

end Repository

end RepoTutor.Repo
