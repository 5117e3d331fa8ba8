import PageCache.Text

/-! The UTF-8 form of texts. Malformed bytes are read as replacement characters, one for each
longest beginning of a character. -/
namespace PageCache.Utf8

def encode (t : Text) : ByteArray := (String.ofList t).toUTF8

def decode? (bytes : ByteArray) : Option Text := (String.fromUTF8? bytes).map String.toList

theorem fromUTF8?_toUTF8 (s : String) : String.fromUTF8? s.toUTF8 = some s := by
  have h : s.toUTF8.IsValidUTF8 := s.isValidUTF8
  rw [String.fromUTF8?, dif_pos h]
  rfl

theorem decode?_encode (t : Text) : decode? (encode t) = some t := by
  rw [decode?, encode, fromUTF8?_toUTF8, Option.map_some, String.toList_ofList]

/-- The least and the greatest byte that may follow the first byte of a character, and the number
of bytes after the first. -/
def continuation (first : Nat) : Option (Nat × Nat × Nat) :=
  if 0xC2 ≤ first && first ≤ 0xDF then some (0x80, 0xBF, 1)
  else if first == 0xE0 then some (0xA0, 0xBF, 2)
  else if first == 0xED then some (0x80, 0x9F, 2)
  else if 0xE1 ≤ first && first ≤ 0xEF then some (0x80, 0xBF, 2)
  else if first == 0xF0 then some (0x90, 0xBF, 3)
  else if first == 0xF4 then some (0x80, 0x8F, 3)
  else if 0xF1 ≤ first && first ≤ 0xF3 then some (0x80, 0xBF, 3)
  else none

/-- The bits of a first byte that belong to the character. -/
def leadBits (first count : Nat) : Nat :=
  match count with
  | 1 => first - 0xC0
  | 2 => first - 0xE0
  | _ => first - 0xF0

/-- Reads up to `count` further bytes of a character, the next one between the bounds: the
character if all are there, and the rest. -/
def tail : Nat → Nat → Nat → Nat → List Nat → Option Char × List Nat
  | 0, _, _, code, rest => (some (Char.ofNat code), rest)
  | _ + 1, _, _, _, [] => (none, [])
  | count + 1, low, high, code, b :: rest =>
    if low ≤ b && b ≤ high then tail count 0x80 0xBF (64 * code + (b - 0x80)) rest
    else (none, b :: rest)

theorem length_tail_le (count low high code : Nat) (bytes : List Nat) :
    (tail count low high code bytes).2.length ≤ bytes.length := by
  fun_induction tail count low high code bytes with
  | case1 => simp
  | case2 => simp
  | case3 count low high code b rest _ ih => exact Nat.le_succ_of_le ih
  | case4 => simp

/-- The characters of bytes, with replacements for malformed ones. -/
def decodeBytes : List Nat → Text
  | [] => []
  | b :: rest =>
    if b < 0x80 then Char.ofNat b :: decodeBytes rest
    else
      match continuation b with
      | none => '\uFFFD' :: decodeBytes rest
      | some (low, high, count) =>
        let read := tail count low high (leadBits b count) rest
        have := length_tail_le count low high (leadBits b count) rest
        read.1.getD '\uFFFD' :: decodeBytes read.2
  termination_by bytes => bytes.length

def decodeLossy (bytes : ByteArray) : Text := decodeBytes (bytes.toList.map UInt8.toNat)

end PageCache.Utf8
