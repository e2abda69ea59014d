/-
What the operation of a line has passed.

A line is read word by word, and a branch name or a path gets into an operation through its check only. What holds of all
that a reader can give is closed under sequencing and choice (`Reads.bind`, `Reads.ite`), so every reader is looked at
once: whatever a line asks for, the names that it gives to branches are accepted, and each of its paths is what
`normalizePath` makes of a word of the line (`parse_vetted`).
-/
import RepoTutor.Proofs.Data.Except
import RepoTutor.Command.Parser

namespace RepoTutor.Command

/-- what is read, if anything is, has this property -/
def Reads {α : Type} (P : α → Prop) (x : Parse α) : Prop := ∀ a, x = .ok a → P a

namespace Reads

variable {α β : Type} {P Q : α → Prop} {R : β → Prop}

theorem ok {a : α} (h : P a) : Reads P (.ok a) := by
  rintro a' ⟨⟩
  exact h

theorem error (e : ParseError) : Reads P (.error e) := fun _ h => by cases h

theorem bind {x : Parse α} {f : α → Parse β} (hx : Reads P x) (hf : ∀ a, P a → Reads R (f a)) : Reads R (x >>= f) := by
  intro b h
  obtain ⟨a, ha, hb⟩ := Except.bind_eq_ok.1 h
  exact hf a (hx a ha) b hb

theorem map {x : Parse α} {f : α → β} (hx : Reads P x) (hf : ∀ a, P a → R (f a)) : Reads R (x.map f) := by
  intro b h
  obtain ⟨a, ha, rfl⟩ := Except.map_eq_ok.1 h
  exact hf a (hx a ha)

theorem ite {c : Prop} [Decidable c] {x y : Parse α} (hx : Reads P x) (hy : Reads P y) :
    Reads P (if c then x else y) := by
  split
  · exact hx
  · exact hy

theorem mono {x : Parse α} (hx : Reads P x) (h : ∀ a, P a → Q a) : Reads Q x := fun a ha => h a (hx a ha)

theorem trivial (x : Parse α) : Reads (fun _ => True) x := fun _ _ => True.intro

end Reads

/-! ## Vetted operations -/

namespace Operation

/-- names that an operation may give to a branch -/
def newNames : Operation → List String
  | init (some name) => [name]
  | branch (.create name _) => [name]
  | branch (.rename _ target) => [target]
  | checkout target (.create _ _) => [target]
  | _ => []

/-- paths and path specifications of an operation -/
def paths : Operation → List String
  | add pathspecs _ => pathspecs
  | remove paths => paths
  | restore paths _ => paths
  | touch paths => paths
  | writeFile path _ _ => [path]
  | deleteFile paths => paths
  | _ => []

end Operation

/-- each of these paths is read from one of the words -/
def FromWords (words paths : List String) : Prop :=
  ∀ path ∈ paths, ∃ word ∈ words, ∃ command, normalizePath command word = .ok path

/-- names and paths of an operation have passed their checks -/
structure Vetted (words : List String) (op : Operation) : Prop where
  names : ∀ name ∈ op.newNames, branchNameFault? name = none
  paths : FromWords words op.paths

namespace FromWords

variable {words words' paths : List String}

theorem nil (words : List String) : FromWords words [] := fun _ h => by cases h

theorem cons {word path command : String} (hpath : normalizePath command word = .ok path) (h : FromWords words paths) :
    FromWords (word :: words) (path :: paths) := by
  intro p hp
  rcases List.mem_cons.1 hp with rfl | hp
  · exact ⟨word, List.mem_cons_self, command, hpath⟩
  · obtain ⟨w, hw, hnormal⟩ := h p hp
    exact ⟨w, List.mem_cons_of_mem word hw, hnormal⟩

theorem mono (h : FromWords words paths) (hsub : words ⊆ words') : FromWords words' paths := by
  intro p hp
  obtain ⟨w, hw, hnormal⟩ := h p hp
  exact ⟨w, hsub hw, hnormal⟩

theorem skip (h : FromWords words paths) (word : String) : FromWords (word :: words) paths :=
  h.mono (List.subset_cons_self word words)

end FromWords

namespace Vetted

variable {words words' : List String} {op : Operation}

theorem mono (h : Vetted words op) (hsub : words ⊆ words') : Vetted words' op := ⟨h.names, h.paths.mono hsub⟩

/-- an operation without new names -/
theorem of_paths (hnames : op.newNames = []) (hpaths : FromWords words op.paths) : Vetted words op :=
  ⟨fun _ h => absurd (hnames ▸ h) List.not_mem_nil, hpaths⟩

/-- an operation without paths -/
theorem of_name {name : String} (hname : branchNameFault? name = none) (hnames : op.newNames = [name])
    (hpaths : op.paths = []) : Vetted words op := by
  refine ⟨fun name' h => ?_, hpaths ▸ .nil words⟩
  rw [hnames, List.mem_singleton] at h
  exact h ▸ hname

/-- an operation with neither -/
theorem plain (hnames : op.newNames = []) (hpaths : op.paths = []) : Vetted words op :=
  of_paths hnames (hpaths ▸ .nil words)

end Vetted

/-! ## Names and paths -/

theorem reads_checkBranchName (command name : String) :
    Reads (fun _ => branchNameFault? name = none) (checkBranchName command name) := by
  unfold checkBranchName
  split
  · exact .error _
  · rename_i hname
    exact .ok hname

theorem reads_addPaths (onlyPaths : Bool) (tokens : List String) :
    Reads (fun r => FromWords tokens r.2) (addPaths onlyPaths tokens) := by
  induction tokens generalizing onlyPaths with
  | nil => exact .ok (.nil _)
  | cons t rest ih =>
    rw [addPaths]
    refine .ite ((ih _).mono fun r h => h.skip t) (.ite (.map (ih _) fun r h => h.skip t)
      (.ite (.map (ih _) fun r h => h.skip t) (.ite (.error _) ?_)))
    exact .bind (fun path hpath => hpath) fun path hpath => .bind (ih _) fun r h => .ok (.cons hpath h)

theorem reads_flagsAndPaths (command : String) (allowed : List String) (onlyPaths : Bool) (tokens : List String) :
    Reads (fun r => FromWords tokens r.2) (flagsAndPaths command allowed onlyPaths tokens) := by
  induction tokens generalizing onlyPaths with
  | nil => exact .ok (.nil _)
  | cons t rest ih =>
    rw [flagsAndPaths]
    refine .ite ((ih _).mono fun r h => h.skip t)
      (.ite (.ite (.map (ih _) fun r h => h.skip t) (.error _)) ?_)
    exact .bind (fun path hpath => hpath) fun path hpath => .bind (ih _) fun r h => .ok (.cons hpath h)

theorem reads_collectPaths (command : String) (allowed tokens : List String) :
    Reads (fun r => FromWords tokens r.2) (collectPaths command allowed tokens) :=
  .bind (reads_flagsAndPaths command allowed false tokens) fun _ h => .ite (.error _) (.ok h)

/-! ## Subcommands -/

theorem reads_init (tokens : List String) : Reads (Vetted tokens) (parseInit tokens) := by
  refine .bind (.trivial _) fun name _ => ?_
  cases name with
  | none => exact .ok (.plain rfl rfl)
  | some name => exact .bind (reads_checkBranchName "init" name) fun _ h => .ok (.of_name h rfl rfl)

theorem reads_add (tokens : List String) : Reads (Vetted tokens) (parseAdd tokens) := by
  refine .bind (reads_addPaths false tokens) fun r h => ?_
  exact .ite (.error _) (.ite (.ok (.plain rfl rfl)) (.ok (.of_paths rfl h)))

/-- an operation on collected paths only -/
theorem reads_onPaths {command : String} {allowed tokens : List String} {f : List String → List String → Operation}
    (hnames : ∀ flags paths, (f flags paths).newNames = []) (hpaths : ∀ flags paths, (f flags paths).paths = paths) :
    Reads (Vetted tokens) (collectPaths command allowed tokens >>= fun r => .ok (f r.1 r.2)) :=
  .bind (reads_collectPaths command allowed tokens) fun r h =>
    .ok (.of_paths (hnames r.1 r.2) ((hpaths r.1 r.2).symm ▸ h))

theorem reads_remove (tokens : List String) : Reads (Vetted tokens) (parseRemove tokens) :=
  reads_onPaths (f := fun _ paths => .remove paths) (fun _ _ => rfl) (fun _ _ => rfl)

theorem reads_restore (tokens : List String) : Reads (Vetted tokens) (parseRestore tokens) :=
  reads_onPaths (f := fun flags paths => .restore paths (flags.contains "--staged" || flags.contains "-S"))
    (fun _ _ => rfl) (fun _ _ => rfl)

theorem reads_touch (tokens : List String) : Reads (Vetted tokens) (parseTouch tokens) :=
  reads_onPaths (f := fun _ paths => .touch paths) (fun _ _ => rfl) (fun _ _ => rfl)

theorem reads_shellRemove (tokens : List String) : Reads (Vetted tokens) (parseShellRemove tokens) :=
  reads_onPaths (f := fun _ paths => .deleteFile paths) (fun _ _ => rfl) (fun _ _ => rfl)

theorem reads_commit (tokens : List String) : Reads (Vetted tokens) (parseCommit tokens) :=
  .bind (.trivial _) fun _ _ => .ite (.error _) (.ite (.error _) (.ok (.plain rfl rfl)))

theorem reads_branch (tokens : List String) : Reads (Vetted tokens) (parseBranch tokens) := by
  have hlist : ∀ names, Reads (Vetted tokens) (listBranches names)
    | [] => .ok (.plain rfl rfl)
    | _ :: _ => .error _
  have hdelete : ∀ force names, Reads (Vetted tokens) (deleteBranch force names)
    | _, [] => .error _
    | _, [_] => .ok (.plain rfl rfl)
    | _, _ :: _ :: _ => .error _
  have hrename : ∀ names, Reads (Vetted tokens) (renameBranch names)
    | [] => .error _
    | [target] => .bind (reads_checkBranchName "branch" target) fun _ h => .ok (.of_name h rfl rfl)
    | [_, target] => .bind (reads_checkBranchName "branch" target) fun _ h => .ok (.of_name h rfl rfl)
    | _ :: _ :: _ :: _ => .error _
  have hcreate : ∀ names, Reads (Vetted tokens) (createBranch names)
    | [] => .error _
    | [name] => .bind (reads_checkBranchName "branch" name) fun _ h => .ok (.of_name h rfl rfl)
    | [name, _] => .bind (reads_checkBranchName "branch" name) fun _ h => .ok (.of_name h rfl rfl)
    | _ :: _ :: _ :: _ => .error _
  exact .bind (.trivial _) fun w _ => .ite (.error _) (.ite (.error _) (.ite (hlist _) (.ite (hdelete _ _)
    (.ite (hrename _) (.ite (hlist _) (hcreate _))))))

/-! ## Moving HEAD -/

/-- a branch that is to be created has an accepted name -/
def HeadWords.Vetted (w : HeadWords) : Prop := ∀ name force, w.create = some (name, force) → branchNameFault? name = none

/-- what the words before a lone `--` say is vetted, and the words after it are words of the line -/
def HeadEnd.Vetted (tokens : List String) : HeadEnd → Prop
  | .all w => w.Vetted
  | .paths w rest => w.Vetted ∧ rest ⊆ tokens

theorem HeadEnd.Vetted.skip {tokens : List String} {e : HeadEnd} (h : e.Vetted tokens) (word : String) :
    e.Vetted (word :: tokens) := by
  cases e with
  | all w => exact h
  | paths w rest => exact ⟨h.1, List.subset_cons_of_subset word h.2⟩

theorem reads_headWords (command : String) (creates forces detaches : List String) (paths : Bool) {w : HeadWords}
    (hw : w.Vetted) (tokens : List String) :
    Reads (HeadEnd.Vetted tokens) (headWords command creates forces detaches paths w tokens) := by
  fun_induction headWords command creates forces detaches paths w tokens with
  | case1 w => exact .ok hw
  | case2 w t rest => exact .ok ⟨hw, List.subset_cons_self t rest⟩
  | case3 w t rest => exact .error _
  | case4 w t => exact .error _
  | case5 w t _ _ _ name rest ih =>
    refine .bind (reads_checkBranchName command name) fun _ hname => ?_
    refine (ih fun name' force h => ?_).mono fun e h => (h.skip name).skip t
    cases h
    exact hname
  | case6 w t rest _ _ _ ih => exact (ih hw).mono fun e h => h.skip t
  | case7 w t rest => exact .error _
  | case8 w t rest _ _ _ _ ih => exact (ih hw).mono fun e h => h.skip t

theorem reads_finishHead {command : String} {plain : CheckoutMode} (tokens : List String)
    (hplain : plain = .any ∨ plain = .branchOnly) {w : HeadWords} (hw : w.Vetted) :
    Reads (Vetted tokens) (finishHead command plain w) := by
  have hnames : ∀ target, (Operation.checkout target plain).newNames = [] := by
    rcases hplain with rfl | rfl <;> exact fun _ => rfl
  unfold finishHead
  split
  · exact .error _
  · split
    · exact .error _
    · rename_i name force hcreate _
      exact .ok (.of_name (hw name force hcreate) rfl rfl)
    · exact .ok (.plain rfl rfl)
    · split
      · exact .ok (.plain (hnames _) rfl)
      · exact .error _

theorem HeadWords.vetted_empty : HeadWords.Vetted {} := fun _ _ h => by cases h

theorem reads_checkout (tokens : List String) : Reads (Vetted tokens) (parseCheckout tokens) := by
  refine .bind (reads_headWords "checkout" _ _ _ true HeadWords.vetted_empty tokens) fun e h => ?_
  cases e with
  | all w => exact reads_finishHead tokens (Or.inl rfl) h
  | paths w rest =>
    refine .bind (reads_collectPaths "checkout" [] rest) fun r hr => ?_
    exact .ite (.error _) (.ok (.of_paths rfl (hr.mono h.2)))

theorem reads_switch (tokens : List String) : Reads (Vetted tokens) (parseSwitch tokens) := by
  refine .bind (reads_headWords "switch" _ _ _ false HeadWords.vetted_empty tokens) fun e h => ?_
  cases e with
  | all w => exact reads_finishHead tokens (Or.inr rfl) h
  | paths w rest => exact reads_finishHead tokens (Or.inr rfl) h.1

/-! ## Other subcommands -/

theorem reads_merge (tokens : List String) : Reads (Vetted tokens) (parseMerge tokens) := by
  refine .bind (.trivial _) fun w _ => .ite ?_ ?_
  · split
    · exact .error _
    · exact .ok (.plain rfl rfl)
  · split
    · exact .error _
    · exact .error _
    · exact .ite (.error _) (.ite (.error _) (.ok (.plain rfl rfl)))

theorem reads_resetWords (mode : Option ResetMode) (targets tokens : List String) :
    Reads (fun r => ∀ rest, r.2.2 = some rest → rest ⊆ tokens) (resetWords mode targets tokens) := by
  induction tokens generalizing mode targets with
  | nil => exact .ok fun _ h => by cases h
  | cons t rest ih =>
    have hrest : ∀ mode targets, Reads (fun r => ∀ rest', r.2.2 = some rest' → rest' ⊆ t :: rest)
        (resetWords mode targets rest) :=
      fun mode targets => (ih mode targets).mono fun r h rest' hr => List.subset_cons_of_subset t (h rest' hr)
    rw [resetWords]
    split
    · exact .ite (.error _) (hrest _ _)
    · refine .ite (.ok fun rest' h => ?_) (.ite (.error _) (hrest _ _))
      cases h
      exact List.subset_cons_self t rest

theorem reads_reset (tokens : List String) : Reads (Vetted tokens) (parseReset tokens) := by
  refine .bind (reads_resetWords none [] tokens) fun r h => ?_
  obtain ⟨mode, targets, rest⟩ := r
  cases rest with
  | some rest =>
    refine .bind (reads_collectPaths "reset" [] rest) fun r hr => ?_
    exact .ite (.error _) (.ok (.of_paths rfl (hr.mono (h rest rfl))))
  | none =>
    dsimp only
    split
    · exact .error _
    · exact .ok (.plain rfl rfl)

theorem reads_log (tokens : List String) : Reads (Vetted tokens) (parseLog tokens) := by
  refine .bind (.trivial _) fun w _ => ?_
  split
  · exact .error _
  · exact .ok (.plain rfl rfl)

theorem reads_status (tokens : List String) : Reads (Vetted tokens) (parseStatus tokens) := by
  cases tokens with
  | nil => exact .ok (.plain rfl rfl)
  | cons t rest => exact .ite (.error _) (.error _)

theorem redirect?_subset {tokens words rest : List String} {append : Bool}
    (h : redirect? tokens = some (words, append, rest)) : rest ⊆ tokens := by
  induction tokens generalizing words with
  | nil => cases h
  | cons t tokens ih =>
    rw [redirect?] at h
    split at h
    · cases h
      exact List.subset_cons_self t rest
    · split at h
      · cases h
        exact List.subset_cons_self t rest
      · obtain ⟨⟨before, append', rest'⟩, hr, heq⟩ := Option.map_eq_some_iff.1 h
        cases heq
        exact List.subset_cons_of_subset t (ih hr)

theorem reads_echo (tokens : List String) : Reads (Vetted tokens) (parseEcho tokens) := by
  unfold parseEcho
  split
  · exact .error _
  · exact .error _
  · exact .error _
  · rename_i words append raw hredirect
    refine .bind (P := fun path => normalizePath "echo" raw = .ok path) (fun path hpath => hpath) fun path hpath => ?_
    exact .ok (.of_paths rfl ((FromWords.cons hpath (.nil [])).mono (redirect?_subset hredirect)))

/-! ## Lines -/

theorem reads_subcommand (name : String) (tokens : List String) :
    Reads (Vetted tokens) (parseSubcommand name tokens) := by
  unfold parseSubcommand
  split
  · exact reads_init tokens
  · exact reads_add tokens
  · exact reads_remove tokens
  · exact reads_restore tokens
  · exact reads_commit tokens
  · exact reads_branch tokens
  · exact reads_checkout tokens
  · exact reads_switch tokens
  · exact reads_merge tokens
  · exact reads_reset tokens
  · exact reads_log tokens
  · exact reads_status tokens
  · exact .error _

theorem reads_words (words : List String) : Reads (Vetted words) (parseWords words) := by
  have hskip : ∀ {first : String} {rest : List String} {x : Parse Operation}, Reads (Vetted rest) x →
      Reads (Vetted (first :: rest)) x :=
    fun h => h.mono fun _ hop => hop.mono (List.subset_cons_self _ _)
  unfold parseWords
  split
  · exact .error _
  · exact .error _
  · exact hskip (hskip (reads_subcommand _ _))
  · exact hskip (reads_touch _)
  · exact hskip (reads_echo _)
  · exact hskip (reads_shellRemove _)
  · exact hskip (reads_subcommand _ _)

/-- **What a line asks for is vetted**: its new names are accepted, and its paths are read from words of the line -/
theorem parse_vetted {line : String} {op : Operation} (h : parse line = .ok op) :
    ∃ words, tokenize line = .ok words ∧ Vetted words op := by
  obtain ⟨words, hwords, hop⟩ := Except.bind_eq_ok.1 h
  exact ⟨words, hwords, reads_words words op hop⟩

end RepoTutor.Command
