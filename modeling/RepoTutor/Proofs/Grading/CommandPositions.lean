/-
Where in a history the expected commands stand.

Commands occur in order when lines at strictly increasing positions satisfy them one by one (`StandInOrder`). This is what
the check of their order decides, although it takes each command as early as it can; the command that it reports is the
one after the longest front of the commands that stands in order. Lines that are added to a history push no line from its
position, so a check of commands that has passed passes from then on (`command_order_is_exact`).
-/
import Mathlib.Data.List.NodupEquivFin
import RepoTutor.Proofs.Grading.CommandOrder

namespace RepoTutor.Grading

open Repo

/-- lines at strictly increasing positions satisfy the commands one by one -/
def StandInOrder (wants history : List String) : Prop :=
  ∃ position : Fin wants.length → Fin history.length,
    StrictMono position ∧ ∀ k, commandMatches wants[k] history[position k] = true

variable {wants history : List String}

theorem OccursInOrder.standInOrder (h : OccursInOrder wants history) : StandInOrder wants history := by
  obtain ⟨lines, hmatch, hsub⟩ := List.sublistForall₂_iff.1 h
  obtain ⟨hlength, hmatch⟩ := List.forall₂_iff_get.1 hmatch
  obtain ⟨position, hposition⟩ := List.sublist_iff_exists_fin_orderEmbedding_get_eq.1 hsub
  refine ⟨fun k => position (k.cast hlength), position.strictMono.comp (Fin.cast_strictMono hlength), fun k => ?_⟩
  have hline := hmatch k.1 k.2 (hlength ▸ k.2)
  rw [hposition] at hline
  exact hline

theorem StandInOrder.occursInOrder (h : StandInOrder wants history) : OccursInOrder wants history := by
  obtain ⟨position, hincreasing, hmatch⟩ := h
  have hlength : (List.ofFn (fun k => history[position k])).length = wants.length := List.length_ofFn
  refine List.sublistForall₂_iff.2 ⟨List.ofFn (fun k => history[position k]), ?_, ?_⟩
  · refine List.forall₂_iff_get.2 ⟨hlength.symm, fun i hi _ => ?_⟩
    rw [List.get_ofFn]
    exact hmatch ⟨i, hi⟩
  · refine List.sublist_iff_exists_fin_orderEmbedding_get_eq.2
      ⟨OrderEmbedding.ofStrictMono (fun k => position (k.cast hlength))
        (hincreasing.comp (Fin.cast_strictMono hlength)), fun k => ?_⟩
    rw [List.get_ofFn]
    rfl

/-- **Commands occur in order exactly where they stand in order.** -/
theorem occursInOrder_iff_standInOrder : OccursInOrder wants history ↔ StandInOrder wants history :=
  ⟨OccursInOrder.standInOrder, StandInOrder.occursInOrder⟩

/-- lines that come later are of no harm to those that are matched -/
theorem OccursInOrder.append (h : OccursInOrder wants history) (more : List String) :
    OccursInOrder wants (history ++ more) := by
  obtain ⟨lines, hmatch, hsub⟩ := List.sublistForall₂_iff.1 h
  exact List.sublistForall₂_iff.2 ⟨lines, hmatch, hsub.trans (List.sublist_append_left history more)⟩

/-- a check that fails reports the command after the longest front that stands in order -/
theorem checkCommandOrder_failed {c : Context} {expected : List String}
    (h : (c.checkCommandOrder expected).passed = false) :
    ∃ (j : Nat) (hj : j < expected.length),
      (∀ k ≤ expected.length, StandInOrder (expected.take k) c.history ↔ k ≤ j)
        ∧ (c.checkCommandOrder expected).actual = "\x60" ++ expected[j] ++ "\x60 missing or out of order" := by
  have hne : matchInOrder expected c.history ≠ expected.length := by
    simpa [Context.checkCommandOrder] using h
  have hlt : matchInOrder expected c.history < expected.length :=
    Nat.lt_of_le_of_ne (matchInOrder_le expected c.history) hne
  refine ⟨matchInOrder expected c.history, hlt, fun k hk => ?_, ?_⟩
  · rw [← occursInOrder_iff_standInOrder, le_matchInOrder_iff hk]
  · simp only [Context.checkCommandOrder, List.getElem?_eq_getElem hlt]

/-- **The check of an order of commands is exact.** It passes exactly when lines at strictly increasing positions of the
history satisfy the expected commands one by one. When it fails, it reports the command after the longest front of them
for which there are such lines. Neither this check nor that of a single command fails after it has passed and lines have
been added to the history. -/
theorem command_order_is_exact (current goal : Repository) (history expected : List String) :
    (((Context.of current goal history).check (.commandOrder expected)).passed = true ↔
        StandInOrder expected history)
      ∧ (((Context.of current goal history).check (.commandOrder expected)).passed = false →
          ∃ (j : Nat) (hj : j < expected.length),
            (∀ k ≤ expected.length, StandInOrder (expected.take k) history ↔ k ≤ j)
              ∧ ((Context.of current goal history).check (.commandOrder expected)).actual =
                "\x60" ++ expected[j] ++ "\x60 missing or out of order")
      ∧ ∀ more : List String,
          (((Context.of current goal history).check (.commandOrder expected)).passed = true →
            ((Context.of current goal (history ++ more)).check (.commandOrder expected)).passed = true)
          ∧ ∀ command,
            ((Context.of current goal history).check (.commandIssued command)).passed = true →
              ((Context.of current goal (history ++ more)).check (.commandIssued command)).passed = true := by
  refine ⟨checkCommandOrder_passed.trans occursInOrder_iff_standInOrder, checkCommandOrder_failed, ?_⟩
  intro more
  refine ⟨fun h => checkCommandOrder_passed.2 ((checkCommandOrder_passed.1 h).append more), fun command h => ?_⟩
  obtain ⟨line, hline, hmatch⟩ := checkCommandIssued_passed.1 h
  exact checkCommandIssued_passed.2 ⟨line, List.mem_append_left more hline, hmatch⟩

/-- `add` stands before `commit`, so in the other order only `commit` is found and `add` is reported -/
theorem early_add_is_reported :
    let history := ["git status", "git add a.txt", "commit -m one", "git log"]
    let graded := fun history => Context.of (.new "main") (.new "main") history
    ((graded history).check (.commandOrder ["re:^add", "commit"])).passed = true
      ∧ ((graded (history ++ ["git push"])).check (.commandOrder ["re:^add", "commit"])).passed = true
      ∧ ((graded history).check (.commandOrder ["commit", "add"])).passed = false
      ∧ StandInOrder ["commit"] history ∧ ¬StandInOrder ["commit", "add"] history
      ∧ ((graded history).check (.commandOrder ["commit", "add"])).actual = "\x60add\x60 missing or out of order" := by
  intro history graded
  have hinOrder : StandInOrder ["re:^add", "commit"] history :=
    (matchInOrder_eq_length_iff.1 (by decide +kernel)).standInOrder
  have hfront : StandInOrder ["commit"] history := (matchInOrder_eq_length_iff.1 (by decide +kernel)).standInOrder
  obtain ⟨hpassed, -, hlater⟩ := command_order_is_exact (.new "main") (.new "main") history ["re:^add", "commit"]
  obtain ⟨hpassed', hreported, -⟩ := command_order_is_exact (.new "main") (.new "main") history ["commit", "add"]
  have hfailed : ((graded history).check (.commandOrder ["commit", "add"])).passed = false := by decide +kernel
  obtain ⟨j, hj, hlongest, hactual⟩ := hreported hfailed
  have hone : j = 1 := Nat.le_antisymm (Nat.le_of_lt_succ hj) ((hlongest 1 (by decide)).1 hfront)
  subst hone
  refine ⟨hpassed.2 hinOrder, (hlater ["git push"]).1 (hpassed.2 hinOrder), hfailed, hfront, fun h => ?_, hactual⟩
  exact absurd (hpassed'.2 h) (Bool.eq_false_iff.1 hfailed)

end RepoTutor.Grading
