/-
Classes of characters that have a name in the Unicode standard.

A name is a property, a general category by its letters or in words, or a script. Case, blanks, dashes and underscores
do not count in a name, and neither does `is` at its front.
-/
import RepoTutor.Pattern.Regex
import RepoTutor.Text.Property
import RepoTutor.Text.Script

namespace RepoTutor.Pattern

/-- a name as it is compared -/
def plainName (cs : List Char) : String :=
  let small := (cs.filter (fun c => c.toNat < 128)).map Text.latinLower
  let bare := match small with
    | 'i' :: 's' :: rest => rest
    | _ => small
  String.ofList (bare.filter (fun c => c != ' ' && c != '_' && c != '-'))

/-- the words for each category -/
def categoryWords : List (Text.Category × List String) := [
  (.uppercaseLetter, ["lu", "uppercaseletter"]), (.lowercaseLetter, ["ll", "lowercaseletter"]),
  (.titlecaseLetter, ["lt", "titlecaseletter"]), (.modifierLetter, ["lm", "modifierletter"]),
  (.otherLetter, ["lo", "otherletter"]), (.nonspacingMark, ["mn", "nonspacingmark"]),
  (.spacingMark, ["mc", "spacingmark"]), (.enclosingMark, ["me", "enclosingmark"]),
  (.decimalDigit, ["nd", "decimalnumber", "digit"]), (.letterNumber, ["nl", "letternumber"]),
  (.otherNumber, ["no", "othernumber"]), (.connector, ["pc", "connectorpunctuation"]),
  (.dash, ["pd", "dashpunctuation"]), (.opening, ["ps", "openpunctuation"]), (.closing, ["pe", "closepunctuation"]),
  (.initialQuote, ["pi", "initialpunctuation"]), (.finalQuote, ["pf", "finalpunctuation"]),
  (.otherPunctuation, ["po", "otherpunctuation"]), (.mathSign, ["sm", "mathsymbol"]),
  (.currencySign, ["sc", "currencysymbol"]), (.modifierSign, ["sk", "modifiersymbol"]),
  (.otherSign, ["so", "othersymbol"]), (.space, ["zs", "spaceseparator"]), (.lineSeparator, ["zl", "lineseparator"]),
  (.paragraphSeparator, ["zp", "paragraphseparator"]), (.control, ["cc", "control", "cntrl"]),
  (.format, ["cf", "format"]), (.privateUse, ["co", "privateuse"]), (.unassigned, ["cn", "unassigned"])]

/-- the words for a group of categories that share their first letter -/
def groupWords : List (Char × List String) := [
  ('L', ["l", "letter"]), ('M', ["m", "mark", "combiningmark"]), ('N', ["n", "number"]),
  ('P', ["p", "punctuation", "punct"]), ('S', ["s", "symbol"]), ('Z', ["z", "separator"]), ('C', ["c", "other"])]

/-- the characters of the categories with a name -/
def categoryClass? (name : String) : Option CharSet :=
  match categoryWords.find? (fun w => w.2.contains name) with
  | some w => some (fun c => Text.category c = w.1)
  | none =>
    match groupWords.find? (fun w => w.2.contains name) with
    | some w => some (fun c => (Text.category c).letters.toList.head? == some w.1)
    | none =>
      match name with
      | "any" => some (fun _ => true)
      | "assigned" => some (fun c => Text.category c ≠ .unassigned)
      | "ascii" => some (fun c => c.toNat < 128)
      | "lc" => some Text.isCasedLetter
      | "casedletter" => some Text.isCasedLetter
      | _ => none

/-- the characters of a script with a name -/
def scriptClass? (name : String) : Option CharSet :=
  (Text.scripts.find? (fun s => s.1.contains name)).map (fun s c => Text.inRanges s.2 c.toNat)

/-- the characters that have a property with a name -/
def propertyClass? : String → Option CharSet
  | "alphabetic" => some Text.isAlphabetic
  | "alpha" => some Text.isAlphabetic
  | "lowercase" => some Text.isLowercase
  | "lower" => some Text.isLowercase
  | "uppercase" => some Text.isUppercase
  | "upper" => some Text.isUppercase
  | "cased" => some Text.isCased
  | "caseignorable" => some Text.isCaseIgnorable
  | "ci" => some Text.isCaseIgnorable
  | "whitespace" => some Text.isBlank
  | "wspace" => some Text.isBlank
  | "space" => some Text.isBlank
  | "asciihexdigit" => some Text.isHexDigit
  | "ahex" => some Text.isHexDigit
  | "joincontrol" => some Text.isJoiner
  | "joinc" => some Text.isJoiner
  | _ => none

/-- the class of a single name -/
def classNamed? (name : String) : Option CharSet :=
  (propertyClass? name).orElse (fun _ => (categoryClass? name).orElse (fun _ => scriptClass? name))

/-- the class of a value of the general category or of the script -/
def classValued? (kind value : String) : Option CharSet :=
  if kind = "gc" ∨ kind = "generalcategory" then categoryClass? value
  else if kind = "sc" ∨ kind = "script" then scriptClass? value
  else none

/-- the class that is written between braces: a name, or a name and a value after a colon or an equals sign -/
def classWritten? (cs : List Char) : Option CharSet :=
  let isMark (c : Char) : Bool := c == ':' || c == '='
  match cs.dropWhile (fun c => !isMark c) with
  | [] => classNamed? (plainName cs)
  | _ :: value => classValued? (plainName (cs.takeWhile (fun c => !isMark c))) (plainName value)

end RepoTutor.Pattern
