/-
Operations on independent paths commute.

An operation that names one path reads and changes only the edits that lie at that path; most only the edit of the path
itself, and `add` the edits under it as a directory as well. So it is local to them (`Local`): other edits are left alone,
and repositories that agree on these edits get the same answer and agree on them afterwards. Two operations that are local
to sets without a common path can be tried in either order (`Local.commute`), whether they succeed or not. Two different
paths have such sets unless one lies under the other (`eq_or_under_of_atPath`), so operations on them commute
(`independent_paths_commute`).
-/
import RepoTutor.Proofs.Transition.AddedPaths
import RepoTutor.Proofs.Transition.BornHead

namespace RepoTutor.Transition

open Command Repo

/-! ## Agreement on some edits -/

/-- nothing but edits differs, and none of these -/
structure Agree (S : Path → Prop) (r r' : Repository) : Prop where
  others : EditsOnly r r'
  edits : ∀ p, S p → r'.edits.get? p = r.edits.get? p

namespace Agree

variable {S : Path → Prop} {r r' : Repository} {p : Path}

theorem refl (r : Repository) : Agree S r r := ⟨.refl r, fun _ _ => rfl⟩

theorem symm (h : Agree S r r') : Agree S r' r := ⟨h.others.symm, fun p hp => (h.edits p hp).symm⟩

theorem mono {T : Path → Prop} (h : Agree S r r') (hsub : ∀ p, T p → S p) : Agree T r r' :=
  ⟨h.others, fun p hp => h.edits p (hsub p hp)⟩

/-- a change that keeps what is agreed on on both sides -/
theorem change {next next' : Repository} (h : Agree S r r') (hnext : EditsOnly r next) (hnext' : EditsOnly r' next')
    (hedits : ∀ p, S p → r'.edits.get? p = r.edits.get? p → next'.edits.get? p = next.edits.get? p) : Agree S next next' :=
  ⟨(hnext.symm.trans h.others).trans hnext', fun p hp => hedits p hp (h.edits p hp)⟩

section Reading

variable (h : Agree S r r') (hp : S p)

include h hp

theorem fileContent : r'.fileContent p = r.fileContent p :=
  Repository.fileContent_congr (Repository.committedContent_editsOnly h.others p) (by rw [h.edits p hp])

theorem contains : r'.edits.contains p = r.edits.contains p := by
  rw [Table.contains, Table.contains, h.edits p hp]

theorem checkKnownPaths : checkKnownPaths r' [p] = checkKnownPaths r [p] := by
  have hunknown : isUnknownPath r' p = isUnknownPath r p := by
    rw [isUnknownPath, isUnknownPath, h.others.headTree, h.contains hp]
  rw [Transition.checkKnownPaths, Transition.checkKnownPaths, List.find?_singleton, List.find?_singleton, hunknown]

end Reading

/-! ### Changing one edit -/

theorem setEdit (h : Agree S r r') (path : Path) (content : Option String) (staged : Bool) :
    Agree S (r.setEdit path content staged) (r'.setEdit path content staged) :=
  h.change (editsOnly_setEdit ..) (editsOnly_setEdit ..) (fun p _ hedit => by
    rw [Repository.get?_setEdit, Repository.get?_setEdit, Repository.committedContent_editsOnly h.others, hedit])

theorem erase (h : Agree S r r') (path : Path) :
    Agree S { r with edits := r.edits.erase path } { r' with edits := r'.edits.erase path } :=
  h.change (.of_edits r _) (.of_edits r' _) (fun p _ hedit => by rw [Table.get?_erase, Table.get?_erase, hedit])

theorem markStaged (h : Agree S r r') (staged : Bool) (which : Path → Bool) :
    Agree S (r.markStaged staged which) (r'.markStaged staged which) :=
  h.change (editsOnly_markStaged ..) (editsOnly_markStaged ..) (fun p _ hedit => by
    rw [Repository.get?_markStaged, Repository.get?_markStaged, hedit])

theorem touchPath (h : Agree S r r') (hp : S p) : Agree S (touchPath r p) (touchPath r' p) := by
  unfold Transition.touchPath
  rw [h.fileContent hp]
  split
  · exact h.setEdit p _ _
  · exact h

theorem removePath (h : Agree S r r') : Agree S (removePath r p) (removePath r' p) := by
  unfold Transition.removePath
  rw [h.others.headTree]
  split
  · exact h.setEdit p _ _
  · exact h.erase p

theorem discardPath (h : Agree S r r') (hp : S p) : Agree S (discardPath r p) (discardPath r' p) := by
  unfold Transition.discardPath
  rw [h.edits p hp]
  cases r.edits.get? p with
  | none => exact h
  | some e =>
    cases hstaged : e.staged with
    | true => simpa [hstaged] using h
    | false => simpa [hstaged] using h.erase p

end Agree

/-! ## Changes of one edit keep the others -/

section Frame

variable {S : Path → Prop} {p : Path} (hp : ¬S p) (r : Repository)

include hp

theorem ne_of_outside {q : Path} (hq : S q) : p ≠ q := fun hpq => hp (hpq ▸ hq)

theorem agree_setEdit (content : Option String) (staged : Bool) : Agree S r (r.setEdit p content staged) :=
  ⟨editsOnly_setEdit .., fun q hq => by rw [Repository.get?_setEdit, if_neg (ne_of_outside hp hq)]⟩

theorem agree_erase : Agree S r { r with edits := r.edits.erase p } :=
  ⟨.of_edits r _, fun q hq => by rw [Table.get?_erase, if_neg (ne_of_outside hp hq)]⟩

theorem agree_touchPath : Agree S r (touchPath r p) := by
  unfold touchPath
  split
  · exact agree_setEdit hp r _ _
  · exact .refl r

theorem agree_removePath : Agree S r (removePath r p) := by
  unfold removePath
  split
  · exact agree_setEdit hp r _ _
  · exact agree_erase hp r

theorem agree_discardPath : Agree S r (discardPath r p) := by
  unfold discardPath
  split
  · split
    · exact .refl r
    · exact agree_erase hp r
  · exact .refl r

theorem agree_markStaged (staged : Bool) : Agree S r (r.markStaged staged [p].contains) := by
  refine ⟨editsOnly_markStaged .., fun q hq => ?_⟩
  have hother : [p].contains q = false := by simpa using (ne_of_outside hp hq).symm
  rw [Repository.get?_markStaged, hother]
  exact Option.map_id'

end Frame

/-! ## Local operations -/

/-- the same answer, with agreement on some edits in case of success -/
inductive Alike (S : Path → Prop) : Refusable Outcome → Refusable Outcome → Prop where
  | done {r r' : Repository} (output : Output) : Agree S r r' → Alike S (.ok ⟨r, output⟩) (.ok ⟨r', output⟩)
  | refused (e : TransitionError) : Alike S (.error e) (.error e)

/-- an operation that changes these edits at most, and depends on no other edits -/
structure Local (S : Path → Prop) (op : Operation) : Prop where
  frame : ∀ {r o}, step r op = .ok o → Agree (fun p => ¬S p) r o.state
  reads : ∀ {r r'}, Agree S r r' → Alike S (step r op) (step r' op)

/-- operations on files and on the stage that name one path, which is no pattern -/
inductive OnPath (p : Path) : Operation → Prop where
  | touch : OnPath p (.touch [p])
  | writeFile (text : String) (append : Bool) : OnPath p (.writeFile p text append)
  | deleteFile : OnPath p (.deleteFile [p])
  | remove : OnPath p (.remove [p])
  | restore (staged : Bool) : OnPath p (.restore [p] staged)
  | add (hp : isPattern p = false) : OnPath p (.add [p] false)

section OneEdit

variable {S : Path → Prop} {p : Path}

theorem Alike.guarded (guard : Refusable Unit) {x x' : Refusable Outcome} (h : Alike S x x') :
    Alike S (guard >>= fun _ => x) (guard >>= fun _ => x') := by
  cases guard with
  | error e => exact .refused e
  | ok u => exact h

variable (hp : S p)

include hp

theorem local_touch : Local S (.touch [p]) where
  frame ho := by
    cases ho
    exact agree_touchPath (not_not.2 hp) _
  reads h := .done _ (h.touchPath hp)

theorem local_writeFile (text : String) (append : Bool) : Local S (.writeFile p text append) where
  frame ho := by
    cases ho
    exact agree_setEdit (not_not.2 hp) _ _ _
  reads {r r'} h := by
    have hsame : step r' (.writeFile p text append) = .ok (silently (r'.setEdit p
        (some ((if append then (r.fileContent p).getD "" else "") ++ text ++ "\n")) false)) := by
      rw [← h.fileContent hp]
      rfl
    rw [hsame]
    exact .done _ (h.setEdit p _ _)

theorem local_deleteFile : Local S (.deleteFile [p]) where
  frame {r o} ho := by
    simp only [step, deleteFiles, List.find?_singleton] at ho
    split at ho
    · cases ho
    · cases ho
      exact agree_setEdit (not_not.2 hp) r _ _
  reads {r r'} h := by
    simp only [step, deleteFiles, List.find?_singleton, h.fileContent hp]
    split
    · exact .refused _
    · exact .done _ (h.setEdit p _ _)

theorem local_remove : Local S (.remove [p]) where
  frame {r o} ho := by
    obtain ⟨-, -, ho⟩ := Except.bind_eq_ok.1 ho
    cases ho
    exact agree_removePath (not_not.2 hp) r
  reads {r r'} h := by
    show Alike S (checkKnownPaths r [p] >>= _) (checkKnownPaths r' [p] >>= _)
    rw [h.checkKnownPaths hp]
    exact .guarded _ (.done _ h.removePath)

theorem local_restore (staged : Bool) : Local S (.restore [p] staged) where
  frame {r o} ho := by
    obtain ⟨-, -, ho⟩ := Except.bind_eq_ok.1 ho
    cases staged with
    | true =>
      cases ho
      exact agree_markStaged (not_not.2 hp) r false
    | false =>
      cases ho
      exact agree_discardPath (not_not.2 hp) r
  reads {r r'} h := by
    show Alike S (checkKnownPaths r [p] >>= _) (checkKnownPaths r' [p] >>= _)
    rw [h.checkKnownPaths hp]
    refine .guarded _ ?_
    cases staged with
    | true => exact .done _ (h.markStaged false _)
    | false => exact .done _ (h.discardPath hp)

end OneEdit

/-! ### Adding a path -/

section Added

variable {r r' : Repository} {p q : Path}

theorem Agree.known (h : Agree (AtPath p) r r') (hq : AtPath p q) : Known r' q ↔ Known r q := by
  rw [Known, Known, h.others.headTree, h.contains hq]

theorem NamesFile.agree (h : Agree (AtPath p) r r') (hnames : NamesFile r p) : NamesFile r' p := by
  rw [NamesFile, h.others.headTree]
  refine hnames.imp_right (fun hnone x hx hunder => ?_)
  exact hnone x ((h.known (Or.inr hunder)).1 hx) hunder

theorem Simulates.agree (h : Agree (AtPath p) r r') (hsim : Simulates r [p] q) : Simulates r' [p] q := by
  obtain rfl := List.mem_singleton.1 hsim.listed
  refine ⟨hsim.listed, hsim.names.agree h, ?_⟩
  rw [Repository.committedContent_editsOnly h.others, h.others.clock]
  exact hsim.differs

/-- what adding a path does to an edit at it follows from the edits at it -/
theorem AddsEdit.agree {after : Option Edit} (h : Agree (AtPath p) r r') (hq : AtPath p q)
    (hadds : AddsEdit r [p] q after) : AddsEdit r' [p] q after :=
  hadds.congr (h.edits q hq) h.others.clock Iff.rfl ⟨fun hsim => hsim.agree h.symm, fun hsim => hsim.agree h⟩

/-- adding a path leaves an edit elsewhere as it is -/
theorem AddsEdit.elsewhere {after : Option Edit} (hq : ¬AtPath p q) (hadds : AddsEdit r [p] q after) :
    after = r.edits.get? q := by
  have hat : ¬∃ spec ∈ [p], AtPath spec q := by
    rintro ⟨spec, hspec, hunder⟩
    obtain rfl := List.mem_singleton.1 hspec
    exact hq hunder
  cases hedit : r.edits.get? q with
  | some e => exact hadds.kept e hedit hat
  | none => exact hadds.absent hedit (fun hsim => hat ⟨q, hsim.listed, Or.inl rfl⟩)

theorem local_add (hp : isPattern p = false) : Local (AtPath p) (.add [p] false) := by
  have hspecs : ∀ spec ∈ [p], isPattern spec = false := by simpa using hp
  constructor
  · intro r o ho
    obtain ⟨next, hadd, hothers, hedits⟩ := add_edits r hspecs
    obtain rfl := Except.ok.inj (hadd.symm.trans ho)
    exact ⟨hothers, fun q hq => (hedits q).elsewhere hq⟩
  · intro r r' h
    obtain ⟨next, hadd, hothers, hedits⟩ := add_edits r hspecs
    obtain ⟨next', hadd', hothers', hedits'⟩ := add_edits r' hspecs
    show Alike (AtPath p) (add r [p] false) (add r' [p] false)
    rw [hadd, hadd']
    exact .done _ (h.change hothers hothers' (fun q hq _ => (hedits' q).unique ((hedits q).agree h hq)))

end Added

theorem OnPath.local {p : Path} {op : Operation} (h : OnPath p op) : Local (AtPath p) op := by
  have hp : AtPath p p := Or.inl rfl
  cases h with
  | touch => exact local_touch hp
  | writeFile text append => exact local_writeFile hp text append
  | deleteFile => exact local_deleteFile hp
  | remove => exact local_remove hp
  | restore staged => exact local_restore hp staged
  | add hpattern => exact local_add hpattern

/-! ## Either order -/

/-- what the learner is told -/
def answer (r : Repository) (op : Operation) : Refusable Output := (apply r op).map Outcome.output

namespace Local

variable {S T : Path → Prop} {op op' : Operation} {r r' : Repository}

section Attempt

variable (h : Local S op) (hw : WellFormed r)

include h hw

/-- the check afterwards does not fail -/
theorem apply_eq : apply r op = step r op :=
  apply_eq_step hw (fun _ ho => hw.distinct_of_same (h.frame ho).others.commits)

theorem attempt_frame : Agree (fun p => ¬S p) r (tryOperation r op) := by
  unfold tryOperation
  rw [h.apply_eq hw]
  split
  · rename_i o ho
    exact h.frame ho
  · exact .refl r

theorem attempt_wellFormed : WellFormed (tryOperation r op) := hw.editsOnly (h.attempt_frame hw).others

theorem attempt_reads (hagree : Agree S r r') :
    answer r' op = answer r op ∧ Agree S (tryOperation r op) (tryOperation r' op) := by
  have halike := h.reads hagree
  unfold answer tryOperation
  rw [h.apply_eq hw, h.apply_eq (hw.editsOnly hagree.others)]
  generalize step r op = x, step r' op = x' at halike ⊢
  cases halike with
  | done output hnext => exact ⟨rfl, hnext⟩
  | refused e => exact ⟨rfl, hagree⟩

end Attempt

/-- another operation that is local to other edits is not noticed -/
theorem attempt_after (h : Local S op) (h' : Local T op') (hdisjoint : ∀ p, S p → ¬T p) (hw : WellFormed r) :
    answer (tryOperation r op') op = answer r op
      ∧ Agree S (tryOperation r op) (tryOperation (tryOperation r op') op) :=
  h.attempt_reads hw ((h'.attempt_frame hw).mono hdisjoint)

/-- **Operations that are local to different edits commute.** -/
theorem commute (h : Local S op) (h' : Local T op') (hdisjoint : ∀ p, S p → ¬T p) (hw : WellFormed r) :
    tryOperation (tryOperation r op) op' = tryOperation (tryOperation r op') op := by
  have hframe := h.attempt_frame hw
  have hframe' := h'.attempt_frame hw
  have hafter := (h.attempt_after h' hdisjoint hw).2
  have hafter' := (h'.attempt_after h (fun p hT hS => hdisjoint p hS hT) hw).2
  -- what each operation leaves alone when it comes second
  have hlast := h.attempt_frame (h'.attempt_wellFormed hw)
  have hlast' := h'.attempt_frame (h.attempt_wellFormed hw)
  refine (hframe'.others.trans hlast.others).eq_of_edits (hframe.others.trans hlast'.others) (fun p => ?_)
  by_cases hS : S p
  · rw [hafter.edits p hS, hlast'.edits p (hdisjoint p hS)]
  · by_cases hT : T p
    · rw [hafter'.edits p hT, hlast.edits p hS]
    · rw [hlast.edits p hS, hlast'.edits p hT, hframe.edits p hS, hframe'.edits p hT]

end Local

/-- **Operations on independent paths commute:** the repository afterwards is the same in either order, and each operation
succeeds or is refused with the same answer, whether it comes first or second. -/
theorem independent_paths_commute {r : Repository} (hcheck : r.check = .ok ()) {p q : Path} {op op' : Operation}
    (hop : OnPath p op) (hop' : OnPath q op') (hne : p ≠ q) (hp : ¬LiesUnder p q) (hq : ¬LiesUnder q p) :
    tryOperation (tryOperation r op) op' = tryOperation (tryOperation r op') op
      ∧ answer (tryOperation r op') op = answer r op ∧ answer (tryOperation r op) op' = answer r op' := by
  have hw := Repository.check_eq_ok.1 hcheck
  have hdisjoint : ∀ x, AtPath p x → ¬AtPath q x := fun x hx hx' =>
    (eq_or_under_of_atPath hx hx').elim hne (fun h => h.elim hp hq)
  exact ⟨hop.local.commute hop'.local hdisjoint hw, (hop.local.attempt_after hop'.local hdisjoint hw).1,
    (hop'.local.attempt_after hop.local (fun x hx hx' => hdisjoint x hx' hx) hw).1⟩

/-- nothing is known of the file, so its removal is refused -/
theorem sorting_refuses : answer sorting (.remove ["da"]) = .error (.pathspecNoMatch "da") := by
  have hhead : sorting.headTree.contains "da" = false :=
    Bool.eq_false_iff.2 (mt (sorting_headTree_contains "da").1 (by decide))
  have hedit : sorting.edits.contains "da" = false := by
    rw [Table.contains, sorting_edits]
    rfl
  have hunknown : isUnknownPath sorting "da" = true := by
    rw [isUnknownPath, hhead, hedit]
    rfl
  have hrefused : checkKnownPaths sorting ["da"] = .error (.pathspecNoMatch "da") := by
    rw [checkKnownPaths, List.find?_singleton, hunknown]
    rfl
  have hstep : step sorting (.remove ["da"]) = .error (.pathspecNoMatch "da") :=
    Except.bind_eq_error.2 (Or.inl hrefused)
  rw [answer, (apply_eq_error rfl).2 hstep]
  rfl

/-- a directory is staged before or after a file is touched whose name begins like that of the directory; removing the
file where it does not exist is refused before and after -/
theorem sorting_commutes :
    sorting.check = .ok () ∧ "d" ≠ "da" ∧ ¬LiesUnder "d" "da" ∧ ¬LiesUnder "da" "d"
      ∧ tryOperation (tryOperation sorting (.add ["d"] false)) (.touch ["da"])
        = tryOperation (tryOperation sorting (.touch ["da"])) (.add ["d"] false)
      ∧ answer (tryOperation sorting (.add ["d"] false)) (.remove ["da"]) = .error (.pathspecNoMatch "da") := by
  have hname : "d" ≠ "da" := by decide
  have hunder : ¬LiesUnder "d" "da" := mt liesUnder_iff.1 (by decide)
  have hunder' : ¬LiesUnder "da" "d" := mt liesUnder_iff.1 (by decide)
  have hadd : OnPath "d" (.add ["d"] false) := .add (by decide)
  refine ⟨sorting_accepted, hname, hunder, hunder', ?_, ?_⟩
  · exact (independent_paths_commute sorting_accepted hadd .touch hname hunder hunder').1
  · rw [(independent_paths_commute sorting_accepted hadd .remove hname hunder hunder').2.2, sorting_refuses]

end RepoTutor.Transition
