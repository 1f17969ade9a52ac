import DockerSim.Chars.Cut
import DockerSim.Yaml.Line

/-!
# Byte offsets in a text

A text can be cut at a byte offset only between two of its characters, and not behind its end
(`cutAt?`). The offsets that a search finds are sizes of what stands before the place that is found,
so a text can be cut there. A search for an ASCII byte is no different: the bytes of a character
outside ASCII are all `128` or more (`bytes`).
-/

namespace DockerSim

/-! ## Sizes -/

namespace Yaml

theorem byteSize_cons (c : Char) (cs : List Char) :
    byteSize (c :: cs) = c.utf8Size + byteSize cs := by
  have hfold : ∀ (cs : List Char) (size : Nat),
      cs.foldl (fun size c => size + c.utf8Size) size = size + byteSize cs := by
    intro cs
    unfold byteSize
    induction cs with
    | nil => exact fun size => rfl
    | cons d cs ih =>
      intro size
      rw [List.foldl_cons, List.foldl_cons, ih, ih (0 + d.utf8Size)]
      omega
  unfold byteSize
  rw [List.foldl_cons, hfold]
  show 0 + c.utf8Size + byteSize cs = c.utf8Size + byteSize cs
  omega

@[simp] theorem byteSize_nil : byteSize [] = 0 := rfl

theorem byteSize_append (xs ys : List Char) : byteSize (xs ++ ys) = byteSize xs + byteSize ys := by
  induction xs with
  | nil => rw [List.nil_append, byteSize_nil, Nat.zero_add]
  | cons x xs ih => rw [List.cons_append, byteSize_cons, byteSize_cons, ih, Nat.add_assoc]

/-- In a text of ASCII characters every character is one byte. -/
theorem byteSize_ascii {cs : List Char} (h : ∀ c ∈ cs, c.utf8Size = 1) :
    byteSize cs = cs.length := by
  induction cs with
  | nil => rfl
  | cons c cs ih =>
    obtain ⟨hc, hcs⟩ := List.forall_mem_cons.1 h
    rw [byteSize_cons, hc, ih hcs, List.length_cons, Nat.add_comm]

end Yaml

namespace Chars

open Yaml

/-! ## Cuts -/

/-- What stands before and behind a number of bytes. There is no such cut inside a character, and
none behind the end. -/
def cutAt? : List Char → Nat → Option (List Char × List Char)
  | cs, 0 => some ([], cs)
  | [], _ + 1 => none
  | c :: cs, n + 1 =>
    if c.utf8Size ≤ n + 1 then
      (cutAt? cs (n + 1 - c.utf8Size)).map fun (before, after) => (c :: before, after)
    else none

/-- The text from an offset on. -/
def fromByte? (cs : List Char) (i : Nat) : Option (List Char) := (cutAt? cs i).map (·.2)

/-- The text up to an offset. -/
def upToByte? (cs : List Char) (i : Nat) : Option (List Char) := (cutAt? cs i).map (·.1)

/-- The text between two offsets, the first of which must not be behind the second. -/
def betweenBytes? (cs : List Char) (i j : Nat) : Option (List Char) :=
  if i ≤ j then (fromByte? cs i).bind fun rest => upToByte? rest (j - i) else none

variable {cs before inside after : List Char} {c : Char} {p : List Char → Bool}

theorem cutAt?_append (before after : List Char) :
    cutAt? (before ++ after) (byteSize before) = some (before, after) := by
  induction before with
  | nil => cases after <;> rfl
  | cons c before ih =>
    have hpos := c.utf8Size_pos
    obtain ⟨n, hn⟩ : ∃ n, byteSize (c :: before) = n + 1 := ⟨byteSize (c :: before) - 1, by
      rw [byteSize_cons]
      omega⟩
    have hle : c.utf8Size ≤ n + 1 := by
      rw [← hn, byteSize_cons]
      omega
    have hrest : n + 1 - c.utf8Size = byteSize before := by
      rw [← hn, byteSize_cons]
      omega
    rw [List.cons_append, hn, cutAt?, if_pos hle, hrest, ih]
    rfl

theorem fromByte?_append (before after : List Char) :
    fromByte? (before ++ after) (byteSize before) = some after := by
  rw [fromByte?, cutAt?_append, Option.map_some]

theorem upToByte?_append (before after : List Char) :
    upToByte? (before ++ after) (byteSize before) = some before := by
  rw [upToByte?, cutAt?_append, Option.map_some]

theorem betweenBytes?_append (before inside after : List Char) :
    betweenBytes? (before ++ (inside ++ after)) (byteSize before)
      (byteSize before + byteSize inside) = some inside := by
  rw [betweenBytes?, if_pos (Nat.le_add_right _ _), fromByte?_append, Option.bind_some,
    Nat.add_sub_cancel_left, upToByte?_append]

/-! ## Searches -/

/-- The offset of the first place from which on the text satisfies `p`. -/
def offsetWhere (p : List Char → Bool) : List Char → Option Nat
  | [] => none
  | c :: cs => if p (c :: cs) then some 0 else (offsetWhere p cs).map (c.utf8Size + ·)

/-- A character is found where the text can be cut at it. -/
theorem offsetWhere_head (q : Char) : ∀ cs : List Char,
    offsetWhere (fun cs => decide (cs.head? = some q)) cs =
      (cut q cs).map fun (before, _) => byteSize before
  | [] => rfl
  | c :: cs => by
    have ih := offsetWhere_head q cs
    unfold cut at ih ⊢
    by_cases hc : c = q
    · simp [offsetWhere, cutWhere, hc]
    · simp only [offsetWhere, cutWhere, List.head?_cons, Option.some.injEq, hc, decide_false,
        beq_eq_false_iff_ne.2 hc, Bool.false_eq_true, if_false, ih, Option.map_map]
      congr 1
      funext parts
      exact (byteSize_cons c parts.1).symm

/-- The bytes of a text. -/
def bytes (cs : List Char) : List UInt8 := cs.flatMap String.utf8EncodeChar

theorem utf8Size_ascii (h : c.toNat < 128) : c.utf8Size = 1 := by
  rw [Char.utf8Size_eq_one_iff, UInt32.le_iff_toNat_le]
  exact Nat.le_of_lt_succ h

theorem bytes_ascii (h : c.toNat < 128) : String.utf8EncodeChar c = [.ofNat c.toNat] := by
  rw [String.utf8EncodeChar_eq_singleton (utf8Size_ascii h)]
  rfl

/-- The bytes of a character outside ASCII are none of ASCII. -/
theorem le_of_mem_bytes (h : ¬c.toNat < 128) {b : UInt8} (hb : b ∈ String.utf8EncodeChar c) :
    128 ≤ b.toNat := by
  have hlt : ¬c.val.toNat ≤ 127 := fun hle => h (Nat.lt_succ_of_le hle)
  have hmod : ∀ n, 128 ≤ n → n < 256 → 128 ≤ (UInt8.ofNat n).toNat := by
    intro n hn hn'
    rw [UInt8.toNat_ofNat', Nat.mod_eq_of_lt hn']
    exact hn
  rw [String.utf8EncodeChar.eq_1, if_neg hlt] at hb
  split at hb
  · rcases List.mem_cons.1 hb with rfl | hb
    · exact hmod _ (by omega) (by omega)
    · rw [List.mem_singleton.1 hb]
      exact hmod _ (by omega) (by omega)
  · split at hb <;> simp only [List.mem_cons, List.not_mem_nil, or_false] at hb
    · rcases hb with rfl | rfl | rfl <;> exact hmod _ (by omega) (by omega)
    · rcases hb with rfl | rfl | rfl | rfl <;> exact hmod _ (by omega) (by omega)

end Chars

end DockerSim
