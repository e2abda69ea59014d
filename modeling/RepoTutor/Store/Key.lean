/-
Sessions by learner and practice, and tables of them.
-/
import RepoTutor.Data.Table

namespace RepoTutor.Store

/-- one learner's run through one practice -/
structure SessionKey where
  learner : String
  practice : String
  deriving DecidableEq, Repr

def SessionKey.text (k : SessionKey) : String := k.learner ++ "/" ++ k.practice

/-- values by session: for each learner, a table by practice -/
structure KeyTable (α : Type) where
  learners : Table (Table α)
  deriving DecidableEq, Repr

namespace KeyTable

variable {α : Type}

def empty : KeyTable α := ⟨.empty⟩

/-- what is kept for a learner, by practice -/
def ofLearner (t : KeyTable α) (learner : String) : Table α := (t.learners.get? learner).getD .empty

def get? (t : KeyTable α) (k : SessionKey) : Option α := (t.ofLearner k.learner).get? k.practice

def contains (t : KeyTable α) (k : SessionKey) : Bool := (t.get? k).isSome

def insert (t : KeyTable α) (k : SessionKey) (v : α) : KeyTable α :=
  ⟨t.learners.insert k.learner ((t.ofLearner k.learner).insert k.practice v)⟩

/-- the values that pass a test -/
def filter (t : KeyTable α) (p : α → Bool) : KeyTable α :=
  ⟨t.learners.map (fun _ practices => practices.filter (fun _ v => p v))⟩

/-- how many sessions have a value -/
def size (t : KeyTable α) : Nat := t.learners.values.foldr (fun practices n => practices.size + n) 0

@[simp] theorem get?_empty (k : SessionKey) : (empty : KeyTable α).get? k = none := rfl

theorem ofLearner_insert (t : KeyTable α) (k : SessionKey) (v : α) (learner : String) :
    (t.insert k v).ofLearner learner
      = if k.learner = learner then (t.ofLearner learner).insert k.practice v else t.ofLearner learner := by
  by_cases h : k.learner = learner
  · subst h; simp [insert, ofLearner]
  · simp [insert, ofLearner, h]

@[simp] theorem get?_insert (t : KeyTable α) (k k' : SessionKey) (v : α) :
    (t.insert k v).get? k' = if k = k' then some v else t.get? k' := by
  cases k with
  | mk l p =>
    cases k' with
    | mk l' p' =>
      by_cases h : l = l'
      · subst h; simp [get?, ofLearner_insert]
      · simp [get?, ofLearner_insert, h]

@[simp] theorem get?_filter (t : KeyTable α) (p : α → Bool) (k : SessionKey) :
    (t.filter p).get? k = (t.get? k).filter p := by
  simp only [get?, ofLearner, filter, Table.get?_map]
  cases t.learners.get? k.learner <;> simp [Option.filter]

end KeyTable

end RepoTutor.Store
