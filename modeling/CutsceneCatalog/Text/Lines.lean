/-!
# Line breaks

A line ends with a line feed, a carriage return, or both in this order.  `unifyBreaks` writes each
of the three as one line feed; what it returns has no carriage return left (`not_mem_unifyBreaks`).
-/

namespace CutsceneCatalog
namespace Text

/-- The text with every line break written as one line feed. -/
def unifyBreaks : List Char → List Char
  | [] => []
  | '\r' :: '\n' :: rest => '\n' :: unifyBreaks rest
  | c :: rest => (if c = '\r' then '\n' else c) :: unifyBreaks rest

@[simp] theorem unifyBreaks_nil : unifyBreaks [] = [] := rfl

theorem not_mem_unifyBreaks (cs : List Char) : '\r' ∉ unifyBreaks cs := by
  fun_induction unifyBreaks cs with
  | case1 => simp
  | case2 rest ih => simpa using ih
  | case3 c rest _ ih =>
    by_cases h : c = '\r'
    · simpa [h] using ih
    · simpa [h, Ne.symm h] using ih

end Text
end CutsceneCatalog
