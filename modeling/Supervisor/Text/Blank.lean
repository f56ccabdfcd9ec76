/-!
# White space

The Unicode property `White_Space`, trimming, and splitting a text at its first blank.
-/
namespace Supervisor.Text

def isBlank (c : Char) : Bool :=
  let n := c.toNat
  (9 ≤ n && n ≤ 13) || n == 0x20 || n == 0x85 || n == 0xA0 || n == 0x1680 ||
    (0x2000 ≤ n && n ≤ 0x200A) || n == 0x2028 || n == 0x2029 || n == 0x202F || n == 0x205F || n == 0x3000

def trimStart (cs : List Char) : List Char := cs.dropWhile isBlank

def trimEnd (cs : List Char) : List Char := (cs.reverse.dropWhile isBlank).reverse

def trim (cs : List Char) : List Char := trimEnd (trimStart cs)

def trimmed (s : String) : String := String.ofList (trim s.toList)

/-- The text before its first blank, and what follows that blank; nothing follows if there is none. -/
def splitAtBlank (cs : List Char) : List Char × Option (List Char) :=
  match cs.dropWhile (!isBlank ·) with
  | [] => (cs, none)
  | _ :: rest => (cs.takeWhile (!isBlank ·), some rest)

@[simp] theorem trimStart_nil : trimStart [] = [] := rfl

theorem trimStart_cons_of_not_blank {c : Char} {cs : List Char} (h : isBlank c = false) :
    trimStart (c :: cs) = c :: cs := by simp [trimStart, h]

end Supervisor.Text
