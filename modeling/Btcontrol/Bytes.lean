import Mathlib

/-! Fixed-width little-endian integers and byte streams delivered in pieces.
Nothing here knows a message format; callers supply widths and lengths. -/
namespace Bytes

/-- The low `n` bytes of `v`, least significant first. -/
def le : Nat → Nat → List UInt8
  | 0, _ => []
  | n + 1, v => UInt8.ofNat (v % 256) :: le n (v / 256)

def leValue : List UInt8 → Nat
  | [] => 0
  | b :: bs => b.toNat + 256 * leValue bs

@[simp] theorem le_length (n v : Nat) : (le n v).length = n := by
  induction n generalizing v with
  | zero => rfl
  | succ n ih => simp [le,ih]

theorem leValue_le (n v : Nat) : leValue (le n v) = v % 256 ^ n := by
  induction n generalizing v with
  | zero => simp [le,leValue,Nat.mod_one]
  | succ n ih =>
    have low : (UInt8.ofNat (v % 256)).toNat = v % 256 := by simp
    simp only [le,leValue,ih,low]
    exact (Nat.pow_succ' (n := n) ▸ Nat.mod_mul).symm

/-- Two's complement reading of a 32 bit pattern. -/
def signed32 (v : Nat) : Int := if v < 2 ^ 31 then v else (v : Int) - 2 ^ 32

/-- The 32 bit pattern of an integer, reduced as a store to an `int` reduces it. -/
def pattern32 (i : Int) : Nat := (i % 2 ^ 32).toNat

def Fits32 (i : Int) : Prop := -2 ^ 31 ≤ i ∧ i < 2 ^ 31

instance (i : Int) : Decidable (Fits32 i) := inferInstanceAs (Decidable (_ ∧ _))

theorem pattern32_lt (i : Int) : pattern32 i < 256 ^ 4 := by
  have := Int.emod_nonneg i (show (2 : Int) ^ 32 ≠ 0 by decide)
  have := Int.emod_lt_of_pos i (show (0 : Int) < 2 ^ 32 by decide)
  simp only [pattern32]
  omega

theorem signed32_pattern32 (i : Int) (fits : Fits32 i) : signed32 (pattern32 i) = i := by
  obtain ⟨low,high⟩ := fits
  simp only [signed32,pattern32]
  omega

theorem signed32_le (i : Int) (fits : Fits32 i) :
    signed32 (leValue (le 4 (pattern32 i))) = i := by
  rw [leValue_le,Nat.mod_eq_of_lt (pattern32_lt i),signed32_pattern32 i fits]

theorem signed32_fits (v : Nat) (below : v < 2 ^ 32) : Fits32 (signed32 v) := by
  simp only [Fits32,signed32]
  split <;> omega

theorem leValue_lt (bytes : List UInt8) : leValue bytes < 256 ^ bytes.length := by
  induction bytes with
  | nil => exact Nat.one_pos
  | cons byte rest ih =>
    have low := byte.toNat_lt
    simp only [leValue,List.length_cons,Nat.pow_succ]
    omega

theorem leValue_le_of_lt (n v : Nat) (bound : v < 256 ^ n) : leValue (le n v) = v := by
  rw [leValue_le,Nat.mod_eq_of_lt bound]

/-- The bytes of a value that was read from bytes are those bytes. -/
theorem le_leValue (bytes : List UInt8) : le bytes.length (leValue bytes) = bytes := by
  induction bytes with
  | nil => rfl
  | cons byte rest ih =>
    have low := byte.toNat_lt
    have this : (byte.toNat + 256 * leValue rest) % 256 = byte.toNat := by omega
    have others : (byte.toNat + 256 * leValue rest) / 256 = leValue rest := by omega
    simp only [List.length_cons,le,leValue,this,others,ih,UInt8.ofNat_toNat]

theorem pattern32_signed32 (v : Nat) (below : v < 2 ^ 32) : pattern32 (signed32 v) = v := by
  simp only [pattern32,signed32]
  split <;> omega

/-- One `read(2)` of at most `n` items: the front piece, or as much of it as was asked for. -/
def recv (n : Nat) : List (List α) → List α × List (List α)
  | [] => ([], [])
  | piece :: pieces =>
    if piece.length ≤ n then (piece, pieces) else (piece.take n, piece.drop n :: pieces)

/-- Pieces as a blocking stream delivers them: a read never returns an empty one. -/
def Delivered (pieces : List (List α)) : Prop := ∀ piece ∈ pieces, piece ≠ []

theorem recv_flatten (n : Nat) (pieces : List (List α)) :
    (recv n pieces).1 ++ (recv n pieces).2.flatten = pieces.flatten := by
  cases pieces with
  | nil => rfl
  | cons piece pieces =>
    simp only [recv]
    split
    · rfl
    · simp [← List.append_assoc]

theorem recv_length_le (n : Nat) (pieces : List (List α)) : (recv n pieces).1.length ≤ n := by
  cases pieces with
  | nil => simp [recv]
  | cons piece pieces =>
    simp only [recv]
    split
    next fits => exact fits
    next =>
      rw [List.length_take]
      omega

theorem recv_delivered (n : Nat) (pieces : List (List α)) (delivered : Delivered pieces) :
    Delivered (recv n pieces).2 := by
  cases pieces with
  | nil => exact delivered
  | cons piece pieces =>
    have rest : Delivered pieces := fun other member => delivered other (List.mem_cons_of_mem _ member)
    simp only [recv]
    split
    next => exact rest
    next longer =>
      intro other member
      rcases List.mem_cons.mp member with rfl | later
      · intro empty
        have := congrArg List.length empty
        simp at this
        omega
      · exact rest other later

/-- A blocking read makes progress while anything is left. -/
theorem recv_progress (n : Nat) (pieces : List (List α)) (delivered : Delivered pieces)
    (asked : 0 < n) (left : pieces.flatten ≠ []) : (recv n pieces).1 ≠ [] := by
  cases pieces with
  | nil => simp at left
  | cons piece pieces =>
    have full := delivered piece List.mem_cons_self
    simp only [recv]
    split
    next => exact full
    next =>
      intro empty
      rcases List.take_eq_nil_iff.mp empty with h | h
      · omega
      · exact full h

/-- One read from a stream that goes on with `front` takes a part of it and leaves the rest. -/
theorem recv_split {front more : List α} {pieces : List (List α)} (delivered : Delivered pieces)
    (stream : pieces.flatten = front ++ more) (asked : 0 < front.length) :
    (recv front.length pieces).1 ≠ [] ∧ ∃ tail, front = (recv front.length pieces).1 ++ tail ∧
      (recv front.length pieces).2.flatten = tail ++ more := by
  have left : pieces.flatten ≠ [] := by
    rw [stream]
    intro empty
    have := congrArg List.length empty
    simp only [List.length_append,List.length_nil] at this
    omega
  refine ⟨recv_progress front.length pieces delivered asked left,?_⟩
  have bounded := recv_length_le front.length pieces
  have split : (recv front.length pieces).1 ++ (recv front.length pieces).2.flatten = front ++ more := by
    rw [recv_flatten,stream]
  rcases List.append_eq_append_iff.mp split with ⟨tail,h1,h2⟩ | ⟨tail,h1,h2⟩
  · exact ⟨tail,h1,h2⟩
  · have := congrArg List.length h1
    simp only [List.length_append] at this
    have empty : tail = [] := List.length_eq_zero_iff.mp (by omega)
    exact ⟨[],by simpa [empty] using h1.symm,by simpa [empty] using h2.symm⟩

/-- Where the pieces end, counted from the start of the stream. -/
def cuts : List (List α) → List Nat
  | [] => []
  | piece :: pieces => piece.length :: (cuts pieces).map (piece.length + ·)

/-- Behind what a read has returned the stream is cut as before. -/
theorem recv_cuts (n : Nat) (pieces : List (List α)) (p : Nat) (behind : 0 < p) :
    (recv n pieces).1.length + p ∈ cuts pieces ↔ p ∈ cuts (recv n pieces).2 := by
  cases pieces with
  | nil => simp [recv,cuts]
  | cons piece pieces =>
    simp only [recv]
    split
    · simp only [cuts,List.mem_cons,List.mem_map]
      constructor
      · rintro (same | ⟨q,inside,same⟩)
        · omega
        · rwa [show p = q by omega]
      · exact fun inside => .inr ⟨p,inside,rfl⟩
    · rename_i longer
      have lengths : (piece.take n).length = n ∧ (piece.drop n).length + n = piece.length := by
        simp only [List.length_take,List.length_drop]
        omega
      simp only [cuts,List.mem_cons,List.mem_map,lengths.1]
      constructor
      · rintro (same | ⟨q,inside,same⟩)
        · exact .inl (by omega)
        · exact .inr ⟨q,inside,by omega⟩
      · rintro (same | ⟨q,inside,same⟩)
        · exact .inl (by omega)
        · exact .inr ⟨q,inside,by omega⟩

/-- A read returns less than it asked for exactly where a piece ends inside of that. -/
theorem recv_whole {front more : List α} {pieces : List (List α)} (delivered : Delivered pieces)
    (stream : pieces.flatten = front ++ more) (asked : 0 < front.length) :
    (recv front.length pieces).1.length = front.length ↔
      ∀ cut ∈ cuts pieces, ¬ (0 < cut ∧ cut < front.length) := by
  cases pieces with
  | nil =>
    have := congrArg List.length stream
    simp only [List.flatten_nil,List.length_nil,List.length_append] at this
    omega
  | cons piece pieces =>
    have full := List.length_pos_iff.mpr (delivered piece List.mem_cons_self)
    simp only [recv,cuts,List.mem_cons,List.mem_map]
    constructor
    · intro whole cut member inside
      have first : front.length ≤ piece.length := by
        split at whole
        · exact Nat.le_of_eq whole.symm
        · omega
      rcases member with rfl | ⟨q,_,rfl⟩ <;> omega
    · intro uncut
      have first := uncut piece.length (.inl rfl)
      split
      · dsimp only
        omega
      · simp only [List.length_take]
        omega

end Bytes
