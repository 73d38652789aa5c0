import LineBasic.Proofs.Session.Jump

/-! The search for the line of a jump. It halves what is left of the lines, and comes to the place that
looking at one line after another comes to. -/

namespace LineBasic.Session

variable {order : Array Int} {target : Int}

section Places

/-- The same search, without an answer once it reads a place past the end of the lines. -/
def bisect? (order : Array Int) (target : Int) (low high : Nat) : Option Nat :=
  if low < high then
    let mid := (low + high) / 2
    match order[mid]? with
    | some n =>
      if n < target then bisect? order target (mid + 1) high else bisect? order target low mid
    | none => none
  else some low
termination_by high - low

lemma bisect?_eq_some (low high : Nat) (hs : high ≤ order.size) :
    bisect? order target low high = some (bisect order target low high) := by
  fun_induction bisect? order target low high with
  | case1 low high hlt mid n hn hnt ih =>
    rw [ih hs]
    conv_rhs => rw [bisect]
    simp only [hlt, mid, hn, hnt, if_true]
  | case2 low high hlt mid n hn hnt ih =>
    rw [ih (by omega)]
    conv_rhs => rw [bisect]
    simp only [hlt, mid, hn, hnt, if_true, if_false]
  | case3 low high hlt mid hn =>
    -- The middle of a range within the lines is the place of a line.
    have hm : order.size ≤ mid := Array.getElem?_eq_none_iff.mp hn
    omega
  | case4 low high hlt => rw [bisect, if_neg hlt]

lemma bisect_le (low high : Nat) (h : low ≤ high) : bisect order target low high ≤ high := by
  fun_induction bisect order target low high with
  | case1 low high hlt mid n hn hnt ih => exact ih (by omega)
  | case2 low high hlt mid n hn hnt ih => exact (ih (by omega)).trans (by omega)
  | case3 low high hlt mid hn => exact h
  | case4 low high hlt => exact h

end Places

section Lookup

variable (h : order.toList.Pairwise (· < ·))

include h

lemma place_unique {i j : Nat} (hi : order[i]? = some target) (hj : order[j]? = some target) : i = j :=
  (bisect_eq h hi).symm.trans (bisect_eq h hj)

lemma resolve?_eq_idxOf? : resolve? order target = order.toList.idxOf? target := by
  ext i
  rw [resolve?_eq_some_iff h, List.idxOf?_eq_some_iff]
  constructor
  · intro hi
    obtain ⟨hlt, he⟩ := Array.getElem?_eq_some_iff.mp hi
    refine ⟨hlt, he, fun j hj hjt => hj.ne (place_unique h ?_ hi)⟩
    rw [← hjt]
    exact Array.getElem?_eq_getElem _
  · rintro ⟨hlt, he, -⟩
    exact Array.getElem?_eq_some_iff.mpr ⟨hlt, he⟩

end Lookup

lemma because_undefinedLine :
    Fault.because .undefinedLine = .told ⟨.runtime, "UNDEFINED LINE NUMBER", none, none⟩ := by
  rw [Fault.because, ← message_undefinedLine]
  rfl

theorem resolve_agrees_with_linear_search {s : Session} (h : s.order.toList.Pairwise (· < ·))
    (target : Int) :
    (resolve target).run s = (match s.order.toList.idxOf? target with
      | some i => .ok i s
      | none => .error (.told ⟨.runtime, "UNDEFINED LINE NUMBER", none, none⟩) s) ∧
    (target ∈ s.order →
      ∃ i, (resolve target).run s = .ok i s ∧ ∀ j, s.order[j]? = some target ↔ j = i) ∧
    (target ∉ s.order →
      (resolve target).run s = .error (.told ⟨.runtime, "UNDEFINED LINE NUMBER", none, none⟩) s) ∧
    (∀ i t, (resolve target).run s = .ok i t → i < s.order.size) ∧
    bisect? s.order target 0 s.order.size = some (bisect s.order target 0 s.order.size) ∧
    bisect s.order target 0 s.order.size ≤ s.order.size ∧
    ∀ i n, s.order[i]? = some n → (i < bisect s.order target 0 s.order.size ↔ n < target) := by
  have hrun := run_resolve target s
  rw [because_undefinedLine] at hrun
  refine ⟨?_, ?_, ?_, ?_, bisect?_eq_some 0 _ le_rfl, bisect_le 0 _ (Nat.zero_le _), ?_⟩
  · cases hi : s.order.toList.idxOf? target <;> rw [hrun, resolve?_eq_idxOf? h, hi]
  · intro hm
    obtain ⟨i, hi⟩ := Array.getElem?_of_mem hm
    rw [(resolve?_eq_some_iff h).mpr hi] at hrun
    refine ⟨i, hrun, fun j => ⟨fun hj => place_unique h hj hi, ?_⟩⟩
    rintro rfl
    exact hi
  · intro hm
    rw [hrun, resolve?_eq_idxOf? h, List.idxOf?_eq_none_iff.mpr (by simpa using hm)]
  · intro i t ht
    rw [hrun] at ht
    split at ht
    · rename_i hr
      cases ht
      exact (Array.getElem?_eq_some_iff.mp ((resolve?_eq_some_iff h).mp hr)).1
    · cases ht
  · exact fun i n hi => lt_bisect_iff h hi

/-- A run of three lines, with lines missing before, between and behind them. -/
def ladder : Session :=
  after (run .passive)
    (after (storeLine 10 "CLS") (after (storeLine 40 "CLS") (after (storeLine 20 "CLS") {})))

lemma ladder_order : ladder.order = #[10, 20, 40] := by decide +kernel

theorem ladder_resolved : ladder.order.toList.Pairwise (· < ·) ∧
    (resolve 10).run ladder = .ok 0 ladder ∧ (resolve 40).run ladder = .ok 2 ladder ∧
    ∀ target ∈ [5, 30, 50], (resolve target).run ladder =
      .error (.told ⟨.runtime, "UNDEFINED LINE NUMBER", none, none⟩) ladder := by
  have h : ladder.order.toList.Pairwise (· < ·) := by
    rw [ladder_order]
    decide
  have hfirst := (resolve_agrees_with_linear_search h 10).1
  have hlast := (resolve_agrees_with_linear_search h 40).1
  rw [ladder_order] at hfirst hlast
  refine ⟨h, hfirst, hlast, fun target ht => ?_⟩
  have hm : target ∉ ladder.order := by
    rw [ladder_order]
    revert target
    decide +kernel
  exact (resolve_agrees_with_linear_search h target).2.2.1 hm

end LineBasic.Session
