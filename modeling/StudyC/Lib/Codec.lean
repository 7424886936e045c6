import Mathlib.Logic.Equiv.Defs
import Mathlib.Tactic.Common

/-!
# Fixed layouts

A type whose values are laid out in a fixed number of bytes, with nothing left over: every byte
string of that length is the layout of one value.
-/

structure Codec (α : Type) where
  size : Nat
  encode : α → List UInt8
  decode : List UInt8 → α
  length_encode : ∀ a, (encode a).length = size
  decode_encode : ∀ a, decode (encode a) = a
  encode_decode : ∀ l, l.length = size → encode (decode l) = l

namespace Codec

variable {α β : Type}

attribute [simp] length_encode decode_encode

def byte : Codec UInt8 where
  size := 1
  encode b := [b]
  decode l := l.headD 0
  length_encode _ := rfl
  decode_encode _ := rfl
  encode_decode l hl := by
    obtain ⟨b, rfl⟩ := List.length_eq_one_iff.mp hl
    rfl

def bytes (n : Nat) : Codec (Vector UInt8 n) where
  size := n
  encode v := v.toList
  decode l := Vector.ofFn fun i => l.getD i.val 0
  length_encode v := v.length_toList
  decode_encode v := by
    ext i hi
    simp
  encode_decode l hl := by
    subst hl
    apply List.ext_getElem
    · simp
    · intro i h1 h2
      simp

/-- One field behind the other. -/
def pair (c : Codec α) (d : Codec β) : Codec (α × β) where
  size := c.size + d.size
  encode p := c.encode p.1 ++ d.encode p.2
  decode l := (c.decode (l.take c.size), d.decode (l.drop c.size))
  length_encode p := by simp
  decode_encode p := by
    rw [List.take_left' (c.length_encode _), List.drop_left' (c.length_encode _), c.decode_encode,
      d.decode_encode]
  encode_decode l hl := by
    rw [c.encode_decode _ (by simp [hl]), d.encode_decode _ (by simp [hl]), List.take_append_drop]

/-- The same bytes for the values of another type. -/
def map (c : Codec α) (e : α ≃ β) : Codec β where
  size := c.size
  encode b := c.encode (e.symm b)
  decode l := e (c.decode l)
  length_encode b := c.length_encode _
  decode_encode b := by simp
  encode_decode l hl := by simp [c.encode_decode l hl]

end Codec
