/-!
# Words in a text

Finding a word at the start of a text (`afterWord?`), splitting a text before a word
(`splitAtWord`), and replacing every occurrence of a word from left to right (`replaceWord`).
`afterWord?` succeeds exactly on the texts that continue the word (`afterWord?_eq_some_iff`).
-/

namespace CutsceneCatalog
namespace Text

/-- The text after a word it begins with. -/
def afterWord? : (word : List Char) → List Char → Option (List Char)
  | [], rest => some rest
  | _ :: _, [] => none
  | w :: word, c :: rest => if w = c then afterWord? word rest else none

theorem afterWord?_eq_some_iff {word cs rest : List Char} :
    afterWord? word cs = some rest ↔ cs = word ++ rest := by
  induction word generalizing cs with
  | nil => simp [afterWord?]
  | cons w word ih =>
    cases cs with
    | nil => simp [afterWord?]
    | cons c cs =>
      by_cases h : w = c
      · subst h; simp [afterWord?, ih]
      · simp [afterWord?, h, Ne.symm h]

/-- Splits a text before the first place where `word` begins, and drops the word; `before` holds
what was passed, last character first. -/
def splitAtWord (word : List Char) :
    (before : List Char) → List Char → Option (List Char × List Char)
  | before, cs =>
      match afterWord? word cs with
      | some rest => some (before.reverse, rest)
      | none =>
          match cs with
          | [] => none
          | c :: rest => splitAtWord word (c :: before) rest

/-- The text in which every occurrence of the word `first :: others`, found from left to right and
without overlap, is replaced. -/
def replaceWord (first : Char) (others replacement : List Char) (cs : List Char) : List Char :=
  match _found : afterWord? (first :: others) cs with
  | some rest => replacement ++ replaceWord first others replacement rest
  | none =>
      match cs with
      | [] => []
      | c :: rest => c :: replaceWord first others replacement rest
termination_by cs.length
decreasing_by
  · have h := afterWord?_eq_some_iff.mp _found
    simp only [h, List.length_append, List.length_cons]
    omega
  · simp

end Text
end CutsceneCatalog
