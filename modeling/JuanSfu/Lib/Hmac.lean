import Mathlib.Data.List.Basic
import Mathlib.Order.Nat

/-!
# Keyed hashes

The HMAC of a message under a key, over any hash function. The key fills one block:
a longer one is hashed first, and what is missing is zero. A tag binds the block of
the key and the message as far as the hash function can tell its inputs apart: who
finds two of them with one tag has found two inputs with one hash, and which these
are `eq_or_collides` says.
-/

namespace Hmac

/-- A hash function; all its values have one size. -/
structure Digest where
  size : ℕ
  hash : List UInt8 → List UInt8
  length_hash (m : List UInt8) : (hash m).length = size

variable {H : Digest} {block : ℕ} {key key' m m' : List UInt8}

/-- The key, made to fill one block. -/
def blockKey (H : Digest) (block : ℕ) (key : List UInt8) : List UInt8 :=
  if block < key.length then H.hash key ++ List.replicate (block - H.size) 0
  else key ++ List.replicate (block - key.length) 0

def pad (v : UInt8) (k : List UInt8) : List UInt8 := k.map (v ^^^ ·)

/-- What the inner hash is taken of. -/
def inner (H : Digest) (block : ℕ) (key m : List UInt8) : List UInt8 :=
  pad 0x36 (blockKey H block key) ++ m

/-- What the outer hash is taken of. -/
def outer (H : Digest) (block : ℕ) (key m : List UInt8) : List UInt8 :=
  pad 0x5c (blockKey H block key) ++ H.hash (inner H block key m)

def hmac (H : Digest) (block : ℕ) (key m : List UInt8) : List UInt8 :=
  H.hash (outer H block key m)

/-- Two inputs with one hash. -/
structure Collides (H : Digest) (x y : List UInt8) : Prop where
  ne : x ≠ y
  hash_eq : H.hash x = H.hash y

theorem length_blockKey (h : H.size ≤ block) : (blockKey H block key).length = block := by
  unfold blockKey
  split
  · rw [List.length_append, List.length_replicate, H.length_hash]
    exact Nat.add_sub_cancel' h
  · next hlong =>
      rw [List.length_append, List.length_replicate]
      exact Nat.add_sub_cancel' (Nat.not_lt.mp hlong)

@[simp] theorem length_pad (v : UInt8) (k : List UInt8) : (pad v k).length = k.length :=
  List.length_map _

theorem pad_injective (v : UInt8) : Function.Injective (pad v) :=
  List.map_injective_iff.mpr fun _ _ h => (UInt8.xor_right_inj v).mp h

/-- Keys of one length that need not be hashed have different blocks. -/
theorem blockKey_inj (hlen : key.length = key'.length) (hle : key.length ≤ block)
    (h : blockKey H block key = blockKey H block key') : key = key' := by
  unfold blockKey at h
  rw [if_neg (Nat.not_lt.mpr hle), if_neg (Nat.not_lt.mpr (hlen ▸ hle))] at h
  exact (List.append_inj h hlen).1

/-- **What a tag binds**: with the same tag, the blocks of the keys and the messages are
the same, or the outer inputs collide, or the inner ones do. -/
theorem eq_or_collides (hsize : H.size ≤ block)
    (h : hmac H block key m = hmac H block key' m') :
    (blockKey H block key = blockKey H block key' ∧ m = m') ∨
      Collides H (outer H block key m) (outer H block key' m') ∨
      Collides H (inner H block key m) (inner H block key' m') := by
  have hlen : (pad 0x5c (blockKey H block key)).length =
      (pad 0x5c (blockKey H block key')).length := by
    rw [length_pad, length_pad, length_blockKey hsize, length_blockKey hsize]
  by_cases houter : outer H block key m = outer H block key' m'
  · obtain ⟨hpad, hhash⟩ := List.append_inj houter hlen
    have hkey := pad_injective 0x5c hpad
    by_cases hinner : inner H block key m = inner H block key' m'
    · unfold inner at hinner
      rw [hkey] at hinner
      exact Or.inl ⟨hkey, List.append_cancel_left hinner⟩
    · exact Or.inr (Or.inr ⟨hinner, hhash⟩)
  · exact Or.inr (Or.inl ⟨houter, h⟩)

end Hmac
