/-
Machine words as bounds on natural numbers.

A number fits a word of `bits` bits exactly if it is below `wordCount bits`.
-/
namespace RepoTutor

/-- how many values a word of so many bits has -/
def wordCount (bits : Nat) : Nat := Nat.pow 2 bits

end RepoTutor
