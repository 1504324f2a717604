/-!
Texts measured in UTF-8 bytes. Lengths and offsets of a template are byte counts; a cut that would
fall inside a character moves to the boundary after it (`dropBytes`) or before it (`takeBytes`).
-/
namespace Templating.Text

def byteLength (cs : List Char) : Nat := cs.foldr (fun c rest => c.utf8Size + rest) 0

def dropBytes : Nat → List Char → List Char
  | 0, cs => cs
  | _, [] => []
  | n + 1, c :: r => dropBytes (n + 1 - c.utf8Size) r

def takeBytes : Nat → List Char → List Char
  | _, [] => []
  | n, c :: r => if c.utf8Size ≤ n then c :: takeBytes (n - c.utf8Size) r else []

@[simp] theorem byteLengthNil : byteLength [] = 0 := rfl

@[simp] theorem byteLengthCons (c : Char) (r : List Char) : byteLength (c :: r) = c.utf8Size + byteLength r := rfl

@[simp] theorem byteLengthAppend (a b : List Char) : byteLength (a ++ b) = byteLength a + byteLength b := by
  induction a with
  | nil => simp
  | cons c r ih => simp [ih, Nat.add_assoc]

theorem byteLengthPositive {cs : List Char} (h : cs ≠ []) : 0 < byteLength cs := by
  cases cs with
  | nil => contradiction
  | cons c r =>
    have := Char.utf8Size_pos c
    simp only [byteLengthCons]; omega

theorem byteLengthOfList (cs : List Char) : byteLength cs = (String.ofList cs).utf8ByteSize := by
  induction cs with
  | nil => simp
  | cons c r ih =>
    rw [byteLengthCons, ih, show c :: r = [c] ++ r from rfl, String.ofList_append, String.utf8ByteSize_append,
      ← String.singleton_eq_ofList, String.utf8ByteSize_singleton]

theorem byteLengthToList (s : String) : byteLength s.toList = s.utf8ByteSize := by
  rw [byteLengthOfList, String.ofList_toList]

theorem dropBytesAppend (a b : List Char) : dropBytes (byteLength a) (a ++ b) = b := by
  induction a with
  | nil => simp [dropBytes]
  | cons c r ih =>
    obtain ⟨n, hn⟩ : ∃ n, byteLength (c :: r) = n + 1 := Nat.exists_eq_add_one.mpr (byteLengthPositive (by simp))
    rw [hn, List.cons_append, dropBytes, ← hn, byteLengthCons, Nat.add_sub_cancel_left, ih]

end Templating.Text
