/-!
# Blank characters

The characters with the Unicode property `White_Space`, and what is decided by them: the text
without its blank ends, and whether a text has nothing else. A name that is blank names nothing.
-/

namespace ModularHost
namespace Text

/-- The characters with the property `White_Space`. -/
def isBlankChar (c : Char) : Bool :=
  let n := c.toNat
  (0x09 ≤ n && n ≤ 0x0D) || n == 0x20 || n == 0x85 || n == 0xA0 || n == 0x1680
    || (0x2000 ≤ n && n ≤ 0x200A) || n == 0x2028 || n == 0x2029 || n == 0x202F
    || n == 0x205F || n == 0x3000

/-- A list without the blank characters at its two ends. -/
def trimList (cs : List Char) : List Char :=
  ((cs.dropWhile isBlankChar).reverse.dropWhile isBlankChar).reverse

/-- A text without the blank characters at its two ends. -/
def trim (s : String) : String :=
  String.ofList (trimList s.toList)

/-- A text is blank when it has only blank characters. -/
def isBlank (s : String) : Bool :=
  s.toList.all isBlankChar

theorem dropWhile_isBlankChar_eq_nil_iff {cs : List Char} :
    cs.dropWhile isBlankChar = [] ↔ cs.all isBlankChar = true := by
  induction cs with
  | nil => simp
  | cons c cs ih => by_cases h : isBlankChar c = true <;> simp_all

theorem all_dropWhile_isBlankChar {cs : List Char} :
    (cs.dropWhile isBlankChar).all isBlankChar = cs.all isBlankChar := by
  induction cs with
  | nil => rfl
  | cons c cs ih => by_cases h : isBlankChar c = true <;> simp_all

theorem trimList_eq_nil_iff {cs : List Char} :
    trimList cs = [] ↔ cs.all isBlankChar = true := by
  rw [trimList, List.reverse_eq_nil_iff, dropWhile_isBlankChar_eq_nil_iff, List.all_reverse,
    all_dropWhile_isBlankChar]

theorem trim_eq_empty_iff {s : String} : trim s = "" ↔ isBlank s = true := by
  rw [trim, isBlank, ← trimList_eq_nil_iff]
  constructor
  · intro h
    have := congrArg String.toList h
    simpa using this
  · intro h
    simp [h]

end Text
end ModularHost
