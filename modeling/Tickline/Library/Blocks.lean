import Mathlib.Data.List.Basic

/-!
# Blocks of a byte string

`blocks size xs` cuts a list into its complete blocks of `size` entries, front first; what is
left behind the last complete block is dropped.  A function that is folded over the blocks of
a message and its padding can take the message's complete blocks as they come and the rest with
the padding afterwards (`foldl_blocks_append`).
-/

set_option autoImplicit false

namespace Tickline.Library

variable {α σ : Type} {size : ℕ}

/-- The block at an index. -/
def block (size : ℕ) (xs : List α) (index : ℕ) : List α := (xs.drop (index * size)).take size

/-- The complete blocks of a list. -/
def blocks (size : ℕ) (xs : List α) : List (List α) :=
  (List.range (xs.length / size)).map (block size xs)

/-- INTERNAL: a block that lies in the front of a list. -/
theorem block_append_left {xs ys : List α} {index : ℕ} (h : (index + 1) * size ≤ xs.length) :
    block size (xs ++ ys) index = block size xs index := by
  rw [Nat.succ_mul] at h
  unfold block
  rw [List.drop_append_of_le_length (by omega), List.take_append_of_le_length]
  rw [List.length_drop]
  omega

/-- INTERNAL: a block that lies behind a front of complete blocks. -/
theorem block_append_right {xs ys : List α} {count : ℕ} (h : xs.length = count * size)
    (index : ℕ) : block size (xs ++ ys) (count + index) = block size ys index := by
  unfold block
  rw [Nat.add_mul, ← h, ← List.drop_drop, List.drop_left]

/-- Behind complete blocks, cutting starts anew. -/
theorem blocks_append {xs ys : List α} {count : ℕ} (hsize : 0 < size)
    (h : xs.length = count * size) : blocks size (xs ++ ys) = blocks size xs ++ blocks size ys := by
  have hcount : xs.length / size = count := by rw [h, Nat.mul_div_cancel _ hsize]
  have htotal : (xs ++ ys).length / size = count + ys.length / size := by
    rw [List.length_append, h, Nat.mul_comm, Nat.mul_add_div hsize]
  unfold blocks
  rw [htotal, hcount, List.range_add, List.map_append, List.map_map]
  congr 1
  · apply List.map_congr_left
    intro index hindex
    apply block_append_left
    rw [h]
    exact Nat.mul_le_mul_right size (List.mem_range.mp hindex)
  · apply List.map_congr_left
    intro index _
    exact block_append_right h index

/-- **Streaming**: folding over the blocks of a message with something behind it is folding over
the message's complete blocks first, and then over the blocks of the rest of the message with
what is behind it. -/
theorem foldl_blocks_append (hsize : 0 < size) (f : σ → List α → σ) (s : σ)
    (message rest : List α) :
    (blocks size (message ++ rest)).foldl f s =
      (blocks size (message.drop (message.length / size * size) ++ rest)).foldl f
        ((List.range (message.length / size)).foldl (fun s index => f s (block size message index))
          s) := by
  have hle : message.length / size * size ≤ message.length := Nat.div_mul_le_self _ _
  have hfront : (message.take (message.length / size * size)).length =
      message.length / size * size := by
    rw [List.length_take, Nat.min_eq_left hle]
  have hsplit : message ++ rest = message.take (message.length / size * size) ++
      (message.drop (message.length / size * size) ++ rest) := by
    rw [← List.append_assoc, List.take_append_drop]
  have hblocks : blocks size (message.take (message.length / size * size)) =
      (List.range (message.length / size)).map (block size message) := by
    unfold blocks
    rw [hfront, Nat.mul_div_cancel _ hsize]
    apply List.map_congr_left
    intro index hindex
    have hin : (index + 1) * size ≤ (message.take (message.length / size * size)).length := by
      rw [hfront]
      exact Nat.mul_le_mul_right size (List.mem_range.mp hindex)
    calc block size (message.take (message.length / size * size)) index
      _ = block size (message.take (message.length / size * size) ++
            message.drop (message.length / size * size)) index := (block_append_left hin).symm
      _ = block size message index := by rw [List.take_append_drop]
  rw [hsplit, blocks_append hsize hfront, hblocks, List.foldl_append, List.foldl_map]

end Tickline.Library
