/-
Operations are read back from their JSON.

An operation, its nested branch or merge operation and the arguments of a commit share one object: each adds its members to
those of the others. No two of these have the same key (`nodup_keys`), so reading takes from every key what was written
there, and splits off first the tag of the operation and then that of the nested one. The mode of a checkout is an object of
its own. The main result `operation_is_read_back` says this of every value that an operation can have been written as, in
whatever order its members stand, and of its texts: so different operations are never written alike.
-/
import RepoTutor.Command.Codec
import RepoTutor.Proofs.Json.MemberOrder

namespace RepoTutor.Command

open Json Json.Value

/-! ## Fields -/

section Fields

variable {l members : List (String × Value)} (h : Shows l members) (name : String)

include h

theorem shows_text {s : String} (hw : first? members name = some (.str s)) :
    Record.required ⟨first? l, false⟩ name str? = some s :=
  h.required name hw (finds_str s)

theorem shows_flag {b : Bool} (hw : first? members name = some (.bool b)) :
    Record.required ⟨first? l, false⟩ name bool? = some b :=
  h.required name hw (finds_bool b)

theorem shows_texts {texts : List String} (hw : first? members name = some (ofStrings texts)) :
    Record.required ⟨first? l, false⟩ name Operation.texts? = some texts :=
  h.required name hw (finds_strings texts)

theorem shows_optionalText {s : Option String} (hw : first? members name = some (optionalText s)) :
    Record.optional ⟨first? l, false⟩ name str? = some s :=
  h.optional name hw (fun _ _ => by simp) (fun a _ => finds_str a)

end Fields

/-! ## Variants without fields -/

theorem finds_fastForward (ff : FastForward) : Finds FastForward.ofJson? (.str ff.name) ff := by
  intro v hv
  rw [same_str.1 hv.1]
  cases ff <;> rfl

theorem finds_resetMode (mode : ResetMode) : Finds ResetMode.ofJson? (.str mode.name) mode := by
  intro v hv
  rw [same_str.1 hv.1]
  cases mode <;> rfl

/-- a variant without fields is all that its tag names -/
theorem tagged_alone {tag name : String} {v : Value} (hv : Reordered (.obj [(tag, .str name)]) v) :
    ∃ rest, v.tagged? tag = some (.str name, .obj rest) := by
  obtain ⟨l, rfl, hl⟩ := Shows.of_reordered hv (List.nodup_singleton tag)
  obtain ⟨rest, htag, -⟩ := hl.tagged rfl rfl
  exact ⟨rest, htag⟩

/-! ## Nested operations -/

theorem finds_checkoutMode (mode : CheckoutMode) : Finds CheckoutMode.ofJson? mode.toJson mode := by
  intro v hv
  cases mode with
  | any =>
    obtain ⟨rest, htag⟩ := tagged_alone hv
    simp [CheckoutMode.ofJson?, htag, variantNameOrIndex?, fieldless?, isFieldless]
  | branchOnly =>
    obtain ⟨rest, htag⟩ := tagged_alone hv
    simp [CheckoutMode.ofJson?, htag, variantNameOrIndex?, fieldless?, isFieldless]
  | detach =>
    obtain ⟨rest, htag⟩ := tagged_alone hv
    simp [CheckoutMode.ofJson?, htag, variantNameOrIndex?, fieldless?, isFieldless]
  | create start force =>
    obtain ⟨l, rfl, hl⟩ := Shows.of_reordered hv (by simp)
    obtain ⟨rest, htag, hrest⟩ := hl.tagged rfl rfl
    have hstart := shows_optionalText hrest "start" rfl
    have hforce := shows_flag hrest "force" rfl
    simp [CheckoutMode.ofJson?, htag, variantNameOrIndex?, hrest.record, hstart, hforce]

theorem commitArgs_of_shows {l : List (String × Value)} {args : CommitArgs} (h : Shows l args.members) :
    CommitArgs.ofJson? (.obj l) = some args := by
  have hmessage := shows_optionalText h "message" rfl
  have hall := shows_flag h "all" rfl
  have hamend := shows_flag h "amend" rfl
  have hempty := shows_flag h "allow_empty" rfl
  have hauthor := shows_optionalText h "author" rfl
  simp [CommitArgs.ofJson?, h.record, hmessage, hall, hamend, hempty, hauthor]

theorem branchOp_of_shows {l : List (String × Value)} {op : BranchOp} (h : Shows l op.members) :
    BranchOp.ofJson? (.obj l) = some op := by
  cases op with
  | list =>
    obtain ⟨rest, htag, -⟩ := h.tagged rfl rfl
    simp [BranchOp.ofJson?, htag, variantNameOrIndex?, fieldless?, isFieldless]
  | create name start =>
    obtain ⟨rest, htag, hrest⟩ := h.tagged rfl rfl
    have hname := shows_text hrest "name" rfl
    have hstart := shows_optionalText hrest "start" rfl
    simp [BranchOp.ofJson?, htag, variantNameOrIndex?, hrest.record, hname, hstart]
  | delete name force =>
    obtain ⟨rest, htag, hrest⟩ := h.tagged rfl rfl
    have hname := shows_text hrest "name" rfl
    have hforce := shows_flag hrest "force" rfl
    simp [BranchOp.ofJson?, htag, variantNameOrIndex?, hrest.record, hname, hforce]
  | rename source target =>
    obtain ⟨rest, htag, hrest⟩ := h.tagged rfl rfl
    have hsource := shows_optionalText hrest "from" rfl
    have htarget := shows_text hrest "to" rfl
    simp [BranchOp.ofJson?, htag, variantNameOrIndex?, hrest.record, hsource, htarget]

theorem mergeOp_of_shows {l : List (String × Value)} {op : MergeOp} (h : Shows l op.members) :
    MergeOp.ofJson? (.obj l) = some op := by
  cases op with
  | start source ff commit message =>
    obtain ⟨rest, htag, hrest⟩ := h.tagged rfl rfl
    have hsource := shows_text hrest "source" rfl
    have hff := hrest.required "ff" rfl (finds_fastForward ff)
    have hcommit := shows_flag hrest "commit" rfl
    have hmessage := shows_optionalText hrest "message" rfl
    simp [MergeOp.ofJson?, htag, variantNameOrIndex?, hrest.record, hsource, hff, hcommit, hmessage]
  | abort =>
    obtain ⟨rest, htag, -⟩ := h.tagged rfl rfl
    simp [MergeOp.ofJson?, htag, variantNameOrIndex?, fieldless?, isFieldless]

/-! ## Operations -/

namespace Operation

/-- the number of commits that a log is limited to is a 64-bit word -/
def FitsWords : Operation → Prop
  | log _ limit _ => ∀ n ∈ limit, n < wordCount 64
  | _ => True

/-- the members of an operation and the one that names it have different keys -/
theorem nodup_keys (op : Operation) : ((("op", Value.str op.tag) :: op.members).map Prod.fst).Nodup := by
  cases op with
  | branch op => cases op <;> simp [members, BranchOp.members]
  | merge op => cases op <;> simp [members, MergeOp.members]
  | _ => simp [members, CommitArgs.members]

theorem finds_operation {op : Operation} (h : op.FitsWords) : Finds Operation.ofJson? op.toJson op := by
  intro v hv
  obtain ⟨l, rfl, hl⟩ := Shows.of_reordered hv op.nodup_keys
  have hother : "op" ∉ op.members.map Prod.fst := (List.nodup_cons.1 op.nodup_keys).1
  obtain ⟨rest, htag, hrest⟩ := hl.tagged rfl (first?_eq_none hother)
  cases op with
  | init initialBranch =>
    have hinitialBranch := shows_optionalText hrest "initial_branch" rfl
    simp [ofJson?, htag, variantName?, tag, tags, hrest.record, hinitialBranch]
  | add pathspecs all =>
    have hpathspecs := shows_texts hrest "pathspecs" rfl
    have hall := shows_flag hrest "all" rfl
    simp [ofJson?, htag, variantName?, tag, tags, hrest.record, hpathspecs, hall]
  | remove paths =>
    have hpaths := shows_texts hrest "paths" rfl
    simp [ofJson?, htag, variantName?, tag, tags, hrest.record, hpaths]
  | restore paths staged =>
    have hpaths := shows_texts hrest "paths" rfl
    have hstaged := shows_flag hrest "staged" rfl
    simp [ofJson?, htag, variantName?, tag, tags, hrest.record, hpaths, hstaged]
  | commit args =>
    have hargs := commitArgs_of_shows hrest
    simp [ofJson?, htag, variantName?, tag, tags, hargs]
  | branch op =>
    have hop := branchOp_of_shows hrest
    simp [ofJson?, htag, variantName?, tag, tags, hop]
  | checkout target mode =>
    have htarget := shows_text hrest "target" rfl
    have hmode := hrest.required "mode" rfl (finds_checkoutMode mode)
    simp [ofJson?, htag, variantName?, tag, tags, hrest.record, htarget, hmode]
  | merge op =>
    have hop := mergeOp_of_shows hrest
    simp [ofJson?, htag, variantName?, tag, tags, hop]
  | reset target mode =>
    have htarget := shows_optionalText hrest "target" rfl
    have hmode := hrest.required "mode" rfl (finds_resetMode mode)
    simp [ofJson?, htag, variantName?, tag, tags, hrest.record, htarget, hmode]
  | log target limit oneline =>
    have htarget := shows_optionalText hrest "target" rfl
    have hlimit := hrest.optional "limit" (f := ofNat) rfl (fun _ _ => by simp [ofNat])
      (fun n hn => finds_nat64 (h n hn))
    have honeline := shows_flag hrest "oneline" rfl
    simp [ofJson?, htag, variantName?, tag, tags, hrest.record, htarget, hlimit, honeline]
  | status => simp [ofJson?, htag, variantName?, tag, tags, fieldless?, isFieldless]
  | touch paths =>
    have hpaths := shows_texts hrest "paths" rfl
    simp [ofJson?, htag, variantName?, tag, tags, hrest.record, hpaths]
  | writeFile path text append =>
    have hpath := shows_text hrest "path" rfl
    have htext := shows_text hrest "text" rfl
    have happend := shows_flag hrest "append" rfl
    simp [ofJson?, htag, variantName?, tag, tags, hrest.record, hpath, htext, happend]
  | deleteFile paths =>
    have hpaths := shows_texts hrest "paths" rfl
    simp [ofJson?, htag, variantName?, tag, tags, hrest.record, hpaths]

/-! ## As values and as texts -/

theorem tidy_optionalText (depth : Nat) (s : Option String) : Tidy depth (optionalText s) :=
  tidy_ofOption depth (fun s _ => tidy_str depth s)

theorem tidy_checkoutMode (depth : Nat) (mode : CheckoutMode) : Tidy (depth + 1) mode.toJson := by
  cases mode <;> exact tidy_obj depth (by simp) (by simp [tidy_optionalText])

theorem tidy_toJson {op : Operation} (h : op.FitsWords) (depth : Nat) : Tidy (depth + 2) op.toJson := by
  refine tidy_obj (depth + 1) op.nodup_keys (List.forall_mem_cons.2 ⟨tidy_str _ _, ?_⟩)
  cases op with
  | branch op => cases op <;> simp [members, BranchOp.members, tidy_optionalText]
  | merge op => cases op <;> simp [members, MergeOp.members, tidy_optionalText]
  | log target limit oneline =>
    have hlimit : Tidy (depth + 1) (Value.ofOption Value.ofNat limit) :=
      tidy_ofOption _ (fun n hn => tidy_ofNat _ (h n hn))
    simp [members, tidy_optionalText, hlimit]
  | _ => simp [members, CommitArgs.members, tidy_optionalText, tidy_checkoutMode]

/-- **An operation is read back.** Every value that it can be written as, with its members in any order, and each text of
such a value is read as the operation; the value with the members as they are listed is one of them, and so is its sorted
form. Different operations are never written alike. -/
theorem operation_is_read_back {op : Operation} (h : op.FitsWords) :
    ReadBack ofJson? op.toJson op
      ∧ ∀ op' : Operation, op'.FitsWords → op ≠ op' → ∀ v v', Reordered op.toJson v → Reordered op'.toJson v' →
          v ≠ v' ∧ v.compact ≠ v'.compact ∧ v.pretty ≠ v'.pretty := by
  have hback : ∀ op : Operation, op.FitsWords → ReadBack ofJson? op.toJson op := fun op h =>
    (finds_operation h).readBack (tidy_toJson h 125)
  refine ⟨hback op h, fun op' h' hne v v' hv hv' => ?_⟩
  exact (hback op h).apart (hback op' h') hne hv hv'

/-- a log of as many commits as a word can count is read back sorted, one of more is not read -/
theorem longest_log_is_read_back :
    (log (some "HEAD") (some (wordCount 64 - 1)) true).FitsWords
      ∧ ofJson? (log (some "HEAD") (some (wordCount 64 - 1)) true).toJson.canonical =
          some (log (some "HEAD") (some (wordCount 64 - 1)) true)
      ∧ ofJson? (log (some "HEAD") (some (wordCount 64)) true).toJson = none := by
  have hfits : (log (some "HEAD") (some (wordCount 64 - 1)) true).FitsWords := by
    rintro n ⟨⟩
    decide
  obtain ⟨hback, -⟩ := operation_is_read_back hfits
  exact ⟨hfits, hback.value _ hback.sorted, by decide⟩

end Operation

end RepoTutor.Command
