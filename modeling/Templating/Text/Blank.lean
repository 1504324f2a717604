/-!
Blank characters and trimming. Texts under examination are lists of characters. Blank is the
Unicode property White_Space, which is more than the six characters core calls whitespace and
leaves out the zero-width ones.
-/
namespace Templating.Text

def isBlank (c : Char) : Bool :=
  let n := c.toNat
  (0x09 ≤ n && n ≤ 0x0D) || n == 0x20 || n == 0x85 || n == 0xA0 || n == 0x1680 ||
    (0x2000 ≤ n && n ≤ 0x200A) || n == 0x2028 || n == 0x2029 || n == 0x202F || n == 0x205F || n == 0x3000

def trimStart (cs : List Char) : List Char := cs.dropWhile isBlank

def trimEnd (cs : List Char) : List Char := (cs.reverse.dropWhile isBlank).reverse

def trim (cs : List Char) : List Char := trimEnd (trimStart cs)

theorem blankAppendTrimStart (cs : List Char) :
    ∃ lead, (∀ c ∈ lead, isBlank c = true) ∧ cs = lead ++ trimStart cs :=
  ⟨cs.takeWhile isBlank, fun _ hc => List.all_eq_true.mp List.all_takeWhile _ hc,
    List.takeWhile_append_dropWhile.symm⟩

theorem trimEndAppendBlank (cs : List Char) :
    ∃ trail, (∀ c ∈ trail, isBlank c = true) ∧ cs = trimEnd cs ++ trail := by
  obtain ⟨lead, blank, split⟩ := blankAppendTrimStart cs.reverse
  refine ⟨lead.reverse, fun c hc => blank c (List.mem_reverse.mp hc), ?_⟩
  have h := congrArg List.reverse split
  simpa [trimEnd, trimStart] using h

theorem trimStartHeadNotBlank {cs : List Char} {c r} (h : trimStart cs = c :: r) : isBlank c = false := by
  have := List.head?_dropWhile_not isBlank cs
  rw [show cs.dropWhile isBlank = c :: r from h] at this
  simpa using this

theorem trimStartLength (cs : List Char) : (trimStart cs).length ≤ cs.length :=
  (List.dropWhile_sublist isBlank).length_le

end Templating.Text
