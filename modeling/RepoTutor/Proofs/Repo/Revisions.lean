/-
What a revision names, told without the reader of revisions.

`Suffixed` is the grammar of suffixes, `Denotes` says which commit a base stands for and `LeadsAll` follows the steps
from parent to parent; `Names` puts the three together. In a well-formed repository a revision resolves to a commit
exactly when it names it (`resolve_names`). The two halves are that the reader of suffixes knows the grammar
(`parseSteps?_eq_some_iff`), and that the run of ascending identifiers which is looked at for an abbreviation holds all
commits that begin with it (`idsWithPrefix_eq_filter`).
-/
import Mathlib.Data.Nat.Digits.Defs
import RepoTutor.Proofs.Repo.Resolution
import RepoTutor.Proofs.Transition.EmptyCommits

namespace RepoTutor.Repo

/-! ## Suffixes -/

/-- the number that decimal digits write, the first one being the highest -/
def numeral (ds : List Char) : Nat := Nat.ofDigits 10 (ds.reverse.map (fun c => c.toNat - '0'.toNat))

/-- what digits after a step mark count: one when there are none, and never 2^64 or more -/
structure CountsAs (ds : List Char) (n : Nat) : Prop where
  digits : ∀ c ∈ ds, Text.isDigit c = true
  value : n = if ds = [] then 1 else numeral ds
  bound : n < 2 ^ 64

/-- the steps that a suffix writes, from left to right -/
inductive Suffixed : List Repository.Step → List Char → Prop where
  | nil : Suffixed [] []
  | ancestor {ds n steps cs} : CountsAs ds n → Suffixed steps cs → Suffixed (.ancestor n :: steps) ('~' :: (ds ++ cs))
  | parent {ds n steps cs} : CountsAs ds n → Suffixed steps cs → Suffixed (.parent n :: steps) ('^' :: (ds ++ cs))

theorem digitsValue_eq_numeral (ds : List Char) : Text.digitsValue ds = numeral ds := by
  rw [numeral, Nat.ofDigits_eq_foldr, List.foldr_map, List.foldr_reverse, Text.digitsValue]
  congr 1
  funext n c
  simp only [Nat.cast_id]
  omega

/-- the next step mark ends the digits -/
theorem Suffixed.notDigit {steps : List Repository.Step} {cs : List Char} (h : Suffixed steps cs) :
    cs.takeWhile Text.isDigit = [] ∧ cs.dropWhile Text.isDigit = cs := by
  cases h with
  | nil => exact ⟨rfl, rfl⟩
  | ancestor _ _ => exact ⟨rfl, rfl⟩
  | parent _ _ => exact ⟨rfl, rfl⟩

theorem stepCount?_eq_some_iff {cs : List Char} {n : Nat} :
    stepCount? cs = some n ↔ CountsAs (cs.takeWhile Text.isDigit) n := by
  have hdigits : ∀ c ∈ cs.takeWhile Text.isDigit, Text.isDigit c = true := fun c hc => List.mem_takeWhile_imp hc
  have hword : wordCount 64 = 2 ^ 64 := rfl
  simp only [stepCount?, List.isEmpty_iff, digitsValue_eq_numeral, hword]
  constructor
  · intro h
    split at h
    · rename_i hnil
      cases h
      exact ⟨hdigits, by rw [if_pos hnil], by norm_num⟩
    · rename_i hne
      obtain ⟨hbound, hvalue⟩ := Option.ite_none_right_eq_some.1 h
      cases hvalue
      exact ⟨hdigits, by rw [if_neg hne], hbound⟩
  · intro h
    have hvalue := h.value
    split
    · rename_i hnil
      rw [if_pos hnil] at hvalue
      rw [hvalue]
    · rename_i hne
      rw [if_neg hne] at hvalue
      rw [← hvalue, if_pos h.bound]

/-- digits are read up to the next step mark -/
theorem CountsAs.read {ds cs : List Char} {n : Nat} {steps : List Repository.Step} (h : CountsAs ds n)
    (hrest : Suffixed steps cs) : stepCount? (ds ++ cs) = some n ∧ (ds ++ cs).dropWhile Text.isDigit = cs := by
  obtain ⟨htake, hdrop⟩ := hrest.notDigit
  have hds : (ds ++ cs).takeWhile Text.isDigit = ds := by
    rw [List.takeWhile_append_of_pos h.digits, htake, List.append_nil]
  refine ⟨stepCount?_eq_some_iff.2 (hds.symm ▸ h), ?_⟩
  rw [List.dropWhile_append_of_pos h.digits, hdrop]

/-- **The reader of suffixes knows the grammar.** -/
theorem parseSteps?_eq_some_iff {cs : List Char} {steps : List Repository.Step} :
    parseSteps? cs = some steps ↔ Suffixed steps cs := by
  constructor
  · intro h
    -- along the reader's own recursion: what is read of the rest is a suffix by itself
    induction cs using parseSteps?.induct generalizing steps with
    | case1 =>
      rw [parseSteps?] at h
      cases h
      exact .nil
    | case2 op cs ih =>
      rw [parseSteps?] at h
      obtain ⟨n, hcount, h⟩ := Option.bind_eq_some_iff.1 h
      have hcounts := stepCount?_eq_some_iff.1 hcount
      rw [← List.takeWhile_append_dropWhile (p := Text.isDigit) (l := cs)]
      dsimp only at h
      split at h
      · rename_i hop
        obtain ⟨rest, hrest, rfl⟩ := Option.map_eq_some_iff.1 h
        rw [hop]
        exact .ancestor hcounts (ih hrest)
      · obtain ⟨hop, h⟩ := Option.ite_none_right_eq_some.1 h
        obtain ⟨rest, hrest, rfl⟩ := Option.map_eq_some_iff.1 h
        rw [hop]
        exact .parent hcounts (ih hrest)
  · intro h
    induction h with
    | nil => rw [parseSteps?]
    | ancestor hcounts hrest ih =>
      obtain ⟨hcount, hdrop⟩ := hcounts.read hrest
      rw [parseSteps?, hcount]
      simp [hdrop, ih]
    | parent hcounts hrest ih =>
      obtain ⟨hcount, hdrop⟩ := hcounts.read hrest
      rw [parseSteps?, hcount]
      simp [hdrop, ih]

/-! ## Abbreviations -/

/-- a text does not come before its own beginning -/
theorem not_lt_of_prefix {p xs : List Char} (h : p <+: xs) : ¬xs < p := by
  induction p generalizing xs with
  | nil => exact List.not_lt_nil xs
  | cons c p ih =>
    obtain ⟨rest, rfl⟩ := h
    rw [List.cons_append, List.cons_lt_cons_iff]
    rintro (hlt | ⟨-, hlt⟩)
    · exact Char.lt_irrefl c hlt
    · exact ih (List.prefix_append p rest) hlt

/-- between a beginning and a text with it there are only texts with it -/
theorem prefix_of_between {p xs ys : List Char} (hp : ¬xs < p) (hlt : xs < ys) (hys : p <+: ys) : p <+: xs := by
  induction p generalizing xs ys with
  | nil => exact List.nil_prefix
  | cons c p ih =>
    obtain ⟨rest, rfl⟩ := hys
    cases xs with
    | nil => exact absurd (List.nil_lt_cons c p) hp
    | cons x xs =>
      rw [List.cons_append, List.cons_lt_cons_iff] at hlt
      rw [List.cons_lt_cons_iff, not_or, not_and] at hp
      obtain ⟨hnot, hp⟩ := hp
      obtain ⟨heq, hlt⟩ := hlt.resolve_left hnot
      exact List.cons_prefix_cons.2 ⟨heq.symm, ih (hp heq) hlt (List.prefix_append p rest)⟩

/-- in ascending order, the texts with one beginning stand together -/
theorem run_eq_filter {p : List Char} {ids : List String} (h : ids.Pairwise (· < ·)) :
    (ids.dropWhile (fun id => id < String.ofList p)).takeWhile (fun id => p.isPrefixOf id.toList) =
      ids.filter (fun id => p.isPrefixOf id.toList) := by
  have hbefore : ∀ id : String, id < String.ofList p → p.isPrefixOf id.toList = false := by
    intro id hlt
    rw [String.lt_iff, String.toList_ofList] at hlt
    exact Bool.eq_false_iff.2 (fun hid => not_lt_of_prefix (List.isPrefixOf_iff_prefix.1 hid) hlt)
  induction ids with
  | nil => rfl
  | cons id ids ih =>
    obtain ⟨hfirst, hrest⟩ := List.pairwise_cons.1 h
    by_cases hlt : id < String.ofList p
    · rw [List.dropWhile_cons_of_pos (by simpa using hlt), ih hrest, List.filter_cons_of_neg (by simp [hbefore id hlt])]
    · have hstart : ids.dropWhile (fun id => id < String.ofList p) = ids := by
        refine List.dropWhile_eq_self_iff.2 (fun hpos => ?_)
        have hnext := hfirst _ (List.getElem_mem hpos)
        simpa using fun hnot => hlt (String.lt_trans hnext hnot)
      rw [List.dropWhile_cons_of_neg (by simpa using hlt)]
      rw [List.takeWhile_cons, List.filter_cons]
      split
      · rw [← ih hrest, hstart]
      · rename_i hid
        -- a later text with the beginning would give it to this one
        refine (List.filter_eq_nil_iff.2 (fun later hlater hwith => hid ?_)).symm
        rw [String.lt_iff, String.toList_ofList] at hlt
        exact List.isPrefixOf_iff_prefix.2 (prefix_of_between hlt (String.lt_iff.1 (hfirst later hlater))
          (List.isPrefixOf_iff_prefix.1 hwith))

namespace Repository

variable {r : Repository}

/-- **The run of identifiers misses none.** -/
theorem idsWithPrefix_eq_filter (r : Repository) (digits : List Char) :
    r.idsWithPrefix digits = r.commits.keys.filter (fun id => digits.isPrefixOf id.toList) :=
  run_eq_filter (List.Pairwise.map _ (fun _ _ hlt => hlt) r.commits.ascending)

theorem mem_idsWithPrefix {digits : List Char} {id : CommitId} :
    id ∈ r.idsWithPrefix digits ↔ r.commits.contains id = true ∧ digits <+: id.toList := by
  rw [idsWithPrefix_eq_filter, List.mem_filter, ← Table.contains_iff_mem_keys, List.isPrefixOf_iff_prefix]

/-- at least four hexadecimal digits that, in lower case, begin the identifier of this commit and of no other -/
structure Abbreviates (r : Repository) (base : List Char) (id : CommitId) : Prop where
  length : 4 ≤ base.length
  digits : ∀ c ∈ base, Text.isHexDigit c = true
  only : ∀ x, r.commits.contains x = true ∧ base.map Text.latinLower <+: x.toList ↔ x = id

theorem abbreviated?_eq_some_iff {base : List Char} {id : CommitId} :
    r.abbreviated? base = some id ↔ r.Abbreviates base id := by
  have hnodup : (r.idsWithPrefix (base.map Text.latinLower)).Nodup := by
    rw [idsWithPrefix_eq_filter]
    exact r.commits.nodup_keys.filter _
  have hone : r.idsWithPrefix (base.map Text.latinLower) = [id] ↔
      ∀ x, r.commits.contains x = true ∧ base.map Text.latinLower <+: x.toList ↔ x = id := by
    simp only [← mem_idsWithPrefix]
    refine ⟨fun h x => by rw [h, List.mem_singleton], fun h => List.perm_singleton.1 ?_⟩
    exact (List.perm_ext_iff_of_nodup hnodup (List.pairwise_singleton _ id)).2 (fun x => by rw [h, List.mem_singleton])
  unfold abbreviated?
  constructor
  · intro h
    split at h
    · cases h
    · rename_i hbase
      simp only [Bool.or_eq_true, decide_eq_true_eq, Bool.not_eq_true', not_or, Nat.not_lt, Bool.not_eq_false,
        List.all_eq_true] at hbase
      split at h
      · rename_i only honly
        cases h
        exact ⟨hbase.1, hbase.2, hone.1 honly⟩
      · cases h
  · intro h
    have hbase : (base.length < 4 || !base.all Text.isHexDigit) = false := by
      simpa using ⟨h.length, h.digits⟩
    rw [hbase, hone.2 h.only]
    rfl

/-! ## Bases -/

/-- the commit that a base stands for -/
inductive Denotes (r : Repository) (base : List Char) (id : CommitId) : Prop where
  | head : String.ofList base = "HEAD" ∨ String.ofList base = "@" → r.headId = some id → Denotes r base id
  | branch : String.ofList base ≠ "HEAD" → String.ofList base ≠ "@" → r.branches.get? (String.ofList base) = some id →
      Denotes r base id
  | abbreviation : String.ofList base ≠ "HEAD" → String.ofList base ≠ "@" →
      r.branches.get? (String.ofList base) = none → r.Abbreviates base id → Denotes r base id

theorem resolveBase_eq_some_iff {base : List Char} {id : CommitId} : r.resolveBase base = some id ↔ r.Denotes base id := by
  unfold resolveBase
  constructor
  · intro h
    dsimp only at h
    split at h
    · rename_i hhead
      exact .head hhead h
    · rename_i hname
      obtain ⟨hhead, hat⟩ := not_or.1 hname
      split at h
      · rename_i id' hbranch
        cases h
        exact .branch hhead hat hbranch
      · rename_i hbranch
        exact .abbreviation hhead hat hbranch (abbreviated?_eq_some_iff.1 h)
  · intro h
    cases h with
    | head hname hhead => simp only [if_pos hname, hhead]
    | branch hhead hat hbranch => simp only [if_neg (not_or.2 ⟨hhead, hat⟩), hbranch]
    | abbreviation hhead hat hbranch habbreviates =>
      simp only [if_neg (not_or.2 ⟨hhead, hat⟩), hbranch, abbreviated?_eq_some_iff.2 habbreviates]

/-! ## Steps -/

/-- so many first parents lead from one commit to the other -/
inductive FirstLine (r : Repository) : Nat → CommitId → CommitId → Prop where
  | here (id) : FirstLine r 0 id id
  | up {n id p a} : (r.parentsOf id)[0]? = some p → FirstLine r n p a → FirstLine r (n + 1) id a

/-- a step leads from one commit to the other -/
inductive Leads (r : Repository) : CommitId → Step → CommitId → Prop where
  | ancestor {n id a} : FirstLine r n id a → Leads r id (.ancestor n) a
  | itself (id) : Leads r id (.parent 0) id
  | parent {n id p} : (r.parentsOf id)[n]? = some p → Leads r id (.parent (n + 1)) p

/-- steps lead from one commit to the other, one after the other -/
inductive LeadsAll (r : Repository) : CommitId → List Step → CommitId → Prop where
  | nil (id) : LeadsAll r id [] id
  | cons {id mid a step steps} : Leads r id step mid → LeadsAll r mid steps a → LeadsAll r id (step :: steps) a

theorem parentsOf_getElem?_eq_some_iff {id p : CommitId} {n : Nat} :
    (r.parentsOf id)[n]? = some p ↔ ∃ c, r.commits.get? id = some c ∧ c.parents[n]? = some p := by
  unfold parentsOf
  cases r.commits.get? id <;> simp

end Repository

/-! ## Revisions -/

namespace WellFormed

open Repository

variable {r : Repository}

theorem getElem?_parentsOf_stored (h : WellFormed r) {id p : CommitId} {n : Nat} (hp : (r.parentsOf id)[n]? = some p) :
    r.commits.contains p = true :=
  h.parent_stored (List.mem_of_getElem? hp)

theorem firstParents_eq_some_iff (h : WellFormed r) {n : Nat} {id a : CommitId} (hid : r.commits.contains id = true) :
    r.firstParents n id = some a ↔ FirstLine r n id a := by
  constructor
  · intro ha
    induction n generalizing id with
    | zero =>
      rw [firstParents, if_pos hid] at ha
      cases ha
      exact .here _
    | succ n ih =>
      obtain ⟨c, hc, ha⟩ := Option.bind_eq_some_iff.1 ha
      obtain ⟨p, hp, ha⟩ := Option.bind_eq_some_iff.1 ha
      have hfirst : (r.parentsOf id)[0]? = some p :=
        parentsOf_getElem?_eq_some_iff.2 ⟨c, hc, List.head?_eq_getElem?.symm.trans hp⟩
      exact .up hfirst (ih (h.getElem?_parentsOf_stored hfirst) ha)
  · intro hline
    induction hline with
    | here id => rw [firstParents, if_pos hid]
    | up hfirst _ ih =>
      obtain ⟨c, hc, hp⟩ := parentsOf_getElem?_eq_some_iff.1 hfirst
      rw [firstParents, hc, Option.bind_eq_bind, Option.bind_some, List.head?_eq_getElem?, hp]
      exact ih (h.getElem?_parentsOf_stored hfirst)

theorem follow_eq_some_iff (h : WellFormed r) {id a : CommitId} (hid : r.commits.contains id = true) {step : Step} :
    r.follow id step = some a ↔ Leads r id step a := by
  cases step with
  | ancestor n =>
    rw [follow, h.firstParents_eq_some_iff hid]
    constructor
    · exact .ancestor
    · intro hleads
      cases hleads with
      | ancestor hline => exact hline
  | parent n =>
    cases n with
    | zero =>
      rw [follow, if_pos hid, Option.some.injEq]
      constructor
      · rintro rfl
        exact .itself id
      · intro hleads
        cases hleads with
        | itself => rfl
    | succ n =>
      have hparent : r.follow id (.parent (n + 1)) = some a ↔ (r.parentsOf id)[n]? = some a :=
        Option.bind_eq_some_iff.trans parentsOf_getElem?_eq_some_iff.symm
      rw [hparent]
      constructor
      · exact .parent
      · intro hleads
        cases hleads with
        | parent hp => exact hp

theorem foldlM_follow_eq_some_iff (h : WellFormed r) {steps : List Step} {id a : CommitId}
    (hid : r.commits.contains id = true) : steps.foldlM r.follow id = some a ↔ LeadsAll r id steps a := by
  induction steps generalizing id with
  | nil =>
    constructor
    · intro ha
      cases ha
      exact .nil _
    · intro hleads
      cases hleads with
      | nil => rfl
  | cons step steps ih =>
    rw [List.foldlM_cons, Option.bind_eq_bind, Option.bind_eq_some_iff]
    constructor
    · rintro ⟨mid, hmid, ha⟩
      exact .cons ((h.follow_eq_some_iff hid).1 hmid) ((ih (h.follow_stored hmid)).1 ha)
    · intro hleads
      cases hleads with
      | cons hmid ha =>
        have hfollow := (h.follow_eq_some_iff hid).2 hmid
        exact ⟨_, hfollow, (ih (h.follow_stored hfollow)).2 ha⟩

end WellFormed

namespace Repository

/-- a base without step marks and a suffix, so that the suffix leads from the base's commit to the one that is named -/
def Names (r : Repository) (rev : String) (id : CommitId) : Prop :=
  ∃ base suffix start steps, rev.toList = base ++ suffix ∧ (∀ c ∈ base, c ≠ '~' ∧ c ≠ '^') ∧ Suffixed steps suffix
    ∧ Denotes r base start ∧ LeadsAll r start steps id

/-- the base of a revision goes up to the first step mark -/
theorem base_of_suffixed {base suffix : List Char} {steps : List Step} (hbase : ∀ c ∈ base, c ≠ '~' ∧ c ≠ '^')
    (h : Suffixed steps suffix) :
    (base ++ suffix).takeWhile (fun c => !isStepMark c) = base
      ∧ (base ++ suffix).dropWhile (fun c => !isStepMark c) = suffix := by
  have hunmarked : ∀ c ∈ base, (!isStepMark c) = true := fun c hc => by simp [isStepMark, hbase c hc]
  rw [List.takeWhile_append_of_pos hunmarked, List.dropWhile_append_of_pos hunmarked]
  cases h with
  | nil => exact ⟨List.append_nil base, rfl⟩
  | ancestor _ _ => exact ⟨List.append_nil base, rfl⟩
  | parent _ _ => exact ⟨List.append_nil base, rfl⟩

end Repository

theorem WellFormed.resolve_iff_names {r : Repository} (h : WellFormed r) {rev : String} {id : CommitId} :
    r.resolve rev = some id ↔ r.Names rev id := by
  constructor
  · intro hid
    obtain ⟨start, hstart, hid⟩ := Option.bind_eq_some_iff.1 hid
    obtain ⟨steps, hsteps, hid⟩ := Option.bind_eq_some_iff.1 hid
    have hbase : ∀ c ∈ rev.toList.takeWhile (fun c => !isStepMark c), c ≠ '~' ∧ c ≠ '^' := by
      intro c hc
      simpa [isStepMark] using List.mem_takeWhile_imp hc
    exact ⟨_, _, start, steps, List.takeWhile_append_dropWhile.symm, hbase, parseSteps?_eq_some_iff.1 hsteps,
      Repository.resolveBase_eq_some_iff.1 hstart,
      (h.foldlM_follow_eq_some_iff (h.resolveBase_stored hstart)).1 hid⟩
  · rintro ⟨base, suffix, start, steps, hrev, hbase, hsuffix, hstart, hleads⟩
    obtain ⟨htake, hdrop⟩ := Repository.base_of_suffixed hbase hsuffix
    have hdenotes := Repository.resolveBase_eq_some_iff.2 hstart
    have hfold := (h.foldlM_follow_eq_some_iff (h.resolveBase_stored hdenotes)).2 hleads
    rw [Repository.resolve, hrev, htake, hdrop, hdenotes, parseSteps?_eq_some_iff.2 hsuffix]
    exact hfold

namespace Repository

/-- **A revision resolves to the commit that it names.** In a repository that passes the check, a text resolves to a
commit exactly when it is a base followed by a suffix, the base denotes a commit, and the steps of the suffix lead from
there along parents to this commit, which is one of the repository. -/
theorem resolve_names {r : Repository} (hcheck : r.check = .ok ()) (rev : String) (id : CommitId) :
    (r.resolve rev = some id ↔ r.Names rev id) ∧ (r.resolve rev = some id → r.commits.contains id = true) :=
  have hw := check_eq_ok.1 hcheck
  ⟨hw.resolve_iff_names, hw.resolve_stored⟩

open Transition

/-- the newer of two commits by four digits of its identifier, and from there to its parent -/
theorem parent_of_abbreviated :
    advanced.check = .ok () ∧ advanced.resolve "D350^~0" = some olderCommit.id
      ∧ advanced.commits.contains olderCommit.id = true := by
  have hw := advanced_cleanRun.reachable.wellFormed
  have hcheck : advanced.check = .ok () := check_eq_ok.2 hw
  have hparent : (advanced.parentsOf newerCommit.id)[0]? = some olderCommit.id :=
    parentsOf_getElem?_eq_some_iff.2 ⟨newerCommit, by simp [advanced], rfl⟩
  have habbreviates : advanced.Abbreviates "D350".toList newerCommit.id := by
    refine ⟨by decide, List.all_eq_true.1 (by decide), fun x => ?_⟩
    have hstored : advanced.commits.contains x = true ↔ newerCommit.id = x ∨ olderCommit.id = x := by
      simp only [advanced, branched, lone, Table.contains_insert]
      simp [Table.contains]
    have hdigits : "D350".toList.map Text.latinLower = "d350".toList := by decide
    rw [hstored, hdigits]
    constructor
    · rintro ⟨rfl | rfl, hbegins⟩
      · rfl
      · rw [olderCommit_id] at hbegins
        exact absurd hbegins (by decide)
    · rintro rfl
      exact ⟨Or.inl rfl, by rw [newerCommit_id]; decide⟩
  have hnames : advanced.Names "D350^~0" olderCommit.id := by
    refine ⟨"D350".toList, "^~0".toList, newerCommit.id, [.parent 1, .ancestor 0], by decide, by simp, ?_, ?_, ?_⟩
    · have hzero : CountsAs ['0'] 0 := ⟨List.all_eq_true.1 (by decide), by decide, by decide⟩
      have hone : CountsAs [] 1 := ⟨List.all_eq_true.1 (by decide), rfl, by decide⟩
      exact .parent hone (.ancestor hzero .nil)
    · exact .abbreviation (by decide) (by decide) (by simp [advanced, branched, lone]) habbreviates
    · exact .cons (.parent hparent) (.cons (.ancestor (.here _)) (.nil _))
  obtain ⟨hresolve, hstored⟩ := resolve_names hcheck "D350^~0" olderCommit.id
  exact ⟨hcheck, hresolve.2 hnames, hstored (hresolve.2 hnames)⟩

end Repository

end RepoTutor.Repo
