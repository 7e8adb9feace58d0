import Mathlib.Data.List.Nodup
import SqlGate.Admission.Pool

/-!
# The line at a pool

Those who hold a slot and those who wait for one stand in one line, in the order in which they came.
Whoever comes joins it at its end, and whoever goes steps out of it, wherever he stands. A pool is
valid if no slot is missing or counted twice, nobody stands in the line twice, and nobody waits
while a slot is free. Then the first in the line, as many as there are slots, are those who hold
one.
-/

namespace SqlGate.Admission

namespace Pool

/-- Those who hold a slot, and behind them those who wait. -/
def line (p : Pool) : List Nat := p.holders ++ p.queue

structure Valid (p : Pool) : Prop where
  count : p.free + p.holders.length = p.capacity
  nodup : p.line.Nodup
  idle : p.queue ≠ [] → p.free = 0

variable {p : Pool} {i j : Nat}

theorem mem_line : i ∈ p.line ↔ i ∈ p.holders ∨ i ∈ p.queue := List.mem_append

theorem ofCapacity_eq_ok_iff {n : Nat} :
    ofCapacity n = .ok p ↔ 0 < n ∧ n ≤ maxCapacity ∧ p = ⟨n, n, [], []⟩ := by
  unfold ofCapacity
  by_cases hz : n = 0
  · simp [hz]
  · by_cases hm : maxCapacity < n
    · simp [hz, hm, Nat.not_le_of_gt hm]
    · simp only [if_neg hz, if_neg hm, Except.ok.injEq, Nat.pos_of_ne_zero hz, Nat.le_of_not_lt hm,
        true_and]
      exact eq_comm

theorem valid_of_ofCapacity {n : Nat} (h : ofCapacity n = .ok p) : p.Valid := by
  obtain ⟨-, -, rfl⟩ := ofCapacity_eq_ok_iff.1 h
  exact ⟨rfl, List.nodup_nil, fun hq => absurd rfl hq⟩

theorem line_of_ofCapacity {n : Nat} (h : ofCapacity n = .ok p) : p.line = [] := by
  obtain ⟨-, -, rfl⟩ := ofCapacity_eq_ok_iff.1 h
  rfl

theorem capacity_of_ofCapacity {n : Nat} (h : ofCapacity n = .ok p) : p.capacity = n := by
  obtain ⟨-, -, rfl⟩ := ofCapacity_eq_ok_iff.1 h
  rfl

/-! ## Coming -/

@[simp] theorem capacity_acquire (p : Pool) (i : Nat) : (p.acquire i).capacity = p.capacity := by
  unfold acquire
  split <;> rfl

theorem acquire_of_pos (i : Nat) (h : 0 < p.free) :
    p.acquire i = { p with free := p.free - 1, holders := p.holders ++ [i] } := if_pos h

theorem acquire_of_zero (i : Nat) (h : p.free = 0) :
    p.acquire i = { p with queue := p.queue ++ [i] } := if_neg (by omega)

theorem mem_holders_acquire (i : Nat) (h : j ∈ p.holders) : j ∈ (p.acquire i).holders := by
  unfold acquire
  split
  · exact List.mem_append_left [i] h
  · exact h

theorem Valid.queue_of_pos (h : p.Valid) (hf : 0 < p.free) : p.queue = [] := by
  by_contra hq
  exact Nat.ne_of_gt hf (h.idle hq)

/-- Whoever comes stands last. -/
theorem Valid.line_acquire (h : p.Valid) (i : Nat) : (p.acquire i).line = p.line ++ [i] := by
  rcases Nat.eq_zero_or_pos p.free with hf | hf
  · rw [acquire_of_zero i hf, line, line, List.append_assoc]
  · rw [acquire_of_pos i hf, line, line, h.queue_of_pos hf, List.append_nil, List.append_nil]

theorem Valid.acquire (h : p.Valid) (hi : i ∉ p.line) : (p.acquire i).Valid := by
  have hnodup : (p.acquire i).line.Nodup := by
    rw [h.line_acquire]
    exact h.nodup.append (List.nodup_singleton i) (by simpa using hi)
  have hcount := h.count
  rcases Nat.eq_zero_or_pos p.free with hf | hf
  · rw [acquire_of_zero i hf] at hnodup ⊢
    exact ⟨hcount, hnodup, fun _ => hf⟩
  · rw [acquire_of_pos i hf] at hnodup ⊢
    refine ⟨?_, hnodup, fun hq => absurd (h.queue_of_pos hf) hq⟩
    dsimp only
    rw [List.length_append, List.length_singleton]
    omega

/-! ## Going -/

theorem leave_of_mem_nil (h : i ∈ p.holders) (hq : p.queue = []) :
    p.leave i = { p with free := p.free + 1, holders := p.holders.erase i } := by
  unfold leave giveBack
  rw [if_pos (List.contains_iff_mem.2 h), hq]

/-- The slot of one who goes is handed to the first who waits. -/
theorem leave_of_mem_cons {rest : List Nat} (h : i ∈ p.holders) (hq : p.queue = j :: rest) :
    p.leave i = { p with holders := p.holders.erase i ++ [j], queue := rest } := by
  unfold leave giveBack
  rw [if_pos (List.contains_iff_mem.2 h), hq]

theorem leave_of_not_mem (h : i ∉ p.holders) :
    p.leave i = { p with queue := p.queue.erase i } :=
  if_neg fun hc => h (List.contains_iff_mem.1 hc)

@[simp] theorem capacity_leave (p : Pool) (i : Nat) : (p.leave i).capacity = p.capacity := by
  by_cases h : i ∈ p.holders
  · cases hq : p.queue with
    | nil => rw [leave_of_mem_nil h hq]
    | cons j rest => rw [leave_of_mem_cons h hq]
  · rw [leave_of_not_mem h]

/-- Whoever goes steps out of the line, and nobody else changes his place. -/
theorem line_leave (p : Pool) (i : Nat) : (p.leave i).line = p.line.erase i := by
  by_cases h : i ∈ p.holders
  · have hline : p.line.erase i = p.holders.erase i ++ p.queue := List.erase_append_left _ h
    rw [hline]
    cases hq : p.queue with
    | nil => rw [leave_of_mem_nil h hq, line, hq]
    | cons j rest => rw [leave_of_mem_cons h hq, line, List.append_assoc, List.singleton_append]
  · have hline : p.line.erase i = p.holders ++ p.queue.erase i := List.erase_append_right _ h
    rw [leave_of_not_mem h, hline, line]

theorem mem_holders_leave (h : j ∈ p.holders) (hj : j ≠ i) : j ∈ (p.leave i).holders := by
  have hmem : j ∈ p.holders.erase i := (List.mem_erase_of_ne hj).2 h
  by_cases hi : i ∈ p.holders
  · cases hq : p.queue with
    | nil =>
        rw [leave_of_mem_nil hi hq]
        exact hmem
    | cons k rest =>
        rw [leave_of_mem_cons hi hq]
        exact List.mem_append_left [k] hmem
  · rw [leave_of_not_mem hi]
    exact h

theorem Valid.mem_line_leave (h : p.Valid) : j ∈ (p.leave i).line ↔ j ≠ i ∧ j ∈ p.line := by
  rw [line_leave, h.nodup.mem_erase_iff]

theorem Valid.leave (h : p.Valid) (i : Nat) : (p.leave i).Valid := by
  have hnodup : (p.leave i).line.Nodup := by
    rw [line_leave]
    exact h.nodup.erase i
  have hcount := h.count
  by_cases hi : i ∈ p.holders
  · have hlen := List.length_erase_of_mem hi
    have hpos := List.length_pos_of_mem hi
    cases hq : p.queue with
    | nil =>
        rw [leave_of_mem_nil hi hq] at hnodup ⊢
        refine ⟨?_, hnodup, fun hne => absurd hq hne⟩
        dsimp only
        omega
    | cons j rest =>
        have hfree : p.free = 0 := h.idle (by simp [hq])
        rw [leave_of_mem_cons hi hq] at hnodup ⊢
        refine ⟨?_, hnodup, fun _ => hfree⟩
        dsimp only
        rw [List.length_append, List.length_singleton]
        omega
  · rw [leave_of_not_mem hi] at hnodup ⊢
    refine ⟨hcount, hnodup, fun hne => h.idle fun hq => hne ?_⟩
    dsimp only
    rw [hq, List.erase_nil]

/-! ## Who holds a slot -/

theorem Valid.not_mem_queue (h : p.Valid) (hi : i ∈ p.holders) : i ∉ p.queue :=
  List.disjoint_of_nodup_append h.nodup hi

theorem Valid.count_holders (h : p.Valid) (hi : i ∈ p.holders) : p.holders.count i = 1 :=
  List.count_eq_one_of_mem h.nodup.of_append_left hi

/-- The slots are those of the first in the line. -/
theorem Valid.holders_eq_take (h : p.Valid) : p.holders = p.line.take p.capacity := by
  have hcount := h.count
  rw [line, List.take_append, List.take_of_length_le (by omega)]
  cases hq : p.queue with
  | nil => simp
  | cons j rest =>
      have hfree := h.idle (by simp [hq])
      have hzero : p.capacity - p.holders.length = 0 := by omega
      rw [hzero, List.take_zero, List.append_nil]

theorem Valid.free_of_line_nil (h : p.Valid) (hl : p.line = []) : p.free = p.capacity := by
  have hcount := h.count
  rw [(List.append_eq_nil_iff.1 hl).1] at hcount
  exact hcount

end Pool

end SqlGate.Admission
