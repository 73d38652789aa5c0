import LineBasic.Proofs.Program
import LineBasic.Proofs.Tree.Plain
import LineBasic.Session.Run

/-! The lines of a run: what the stored lines compile to, how a jump finds its line, and which
line comes next. -/

namespace LineBasic.Session

section Compiled

variable {depth : Nat} {p : Program} {compiled : Numbered Stmt} {n : Int} {stmt : Stmt}

lemma compileLines_cons {code : String}
    (h : compileLines depth ((n, code) :: p) = (compiled, none)) :
    ∃ stmt rest, Parse.compileLine depth code n = .ok stmt ∧ compileLines depth p = (rest, none) ∧
      compiled = (n, stmt) :: rest := by
  simp only [compileLines] at h
  split at h
  · simp at h
  · rename_i stmt hl
    obtain ⟨rfl, hf⟩ := Prod.mk.inj h
    exact ⟨stmt, (compileLines depth p).1, hl, Prod.ext rfl hf, rfl⟩

lemma compileLines_numbers (h : compileLines depth p = (compiled, none)) :
    compiled.numbers = p.numbers := by
  induction p generalizing compiled with
  | nil =>
    obtain ⟨rfl, -⟩ := Prod.mk.inj h
    rfl
  | cons c p ih =>
    obtain ⟨n, code⟩ := c
    obtain ⟨stmt, rest, -, hr, rfl⟩ := compileLines_cons h
    simp only [Numbered.numbers, List.map_cons, List.cons.injEq, true_and]
    exact ih hr

lemma mem_compileLines (h : compileLines depth p = (compiled, none)) (hm : (n, stmt) ∈ compiled) :
    ∃ code, (n, code) ∈ p ∧ Parse.compileLine depth code n = .ok stmt := by
  induction p generalizing compiled with
  | nil =>
    obtain ⟨rfl, -⟩ := Prod.mk.inj h
    cases hm
  | cons c p ih =>
    obtain ⟨m, code⟩ := c
    obtain ⟨stmt', rest, hl, hr, rfl⟩ := compileLines_cons h
    rcases List.mem_cons.mp hm with he | hm
    · obtain ⟨rfl, rfl⟩ := Prod.mk.inj he
      exact ⟨code, List.mem_cons_self, hl⟩
    · obtain ⟨code', hm', hl'⟩ := ih hr hm
      exact ⟨code', List.mem_cons_of_mem _ hm', hl'⟩

lemma compileLines_ascending (hp : p.Ascending) (h : compileLines depth p = (compiled, none)) :
    compiled.Ascending := by
  rw [Numbered.Ascending]
  rw [compileLines_numbers h]
  exact hp

lemma compileLines_find? (hp : p.Ascending) (h : compileLines depth p = (compiled, none))
    (hf : compiled.find? n = some stmt) :
    ∃ code, p.find? n = some code ∧ Parse.compileLine depth code n = .ok stmt := by
  have hm := (Numbered.find?_eq_some_iff (compileLines_ascending hp h)).mp hf
  obtain ⟨code, hm', hl⟩ := mem_compileLines h hm
  exact ⟨code, (Numbered.find?_eq_some_iff hp).mpr hm', hl⟩

end Compiled

variable {order : Array Int} {target : Int}

lemma mem_numbers_of_order {code : Numbered Stmt} (ho : order = code.numbers.toArray) {i : Nat} {n : Int}
    (hn : order[i]? = some n) : n ∈ code.numbers := by
  rw [ho, List.getElem?_toArray] at hn
  exact List.mem_of_getElem? hn

lemma lt_of_getElem?_lt (h : order.toList.Pairwise (· < ·)) {i j : Nat} {m n : Int}
    (hi : order[i]? = some m) (hj : order[j]? = some n) (hmn : m < n) : i < j := by
  obtain ⟨hi', rfl⟩ := Array.getElem?_eq_some_iff.mp hi
  obtain ⟨hj', rfl⟩ := Array.getElem?_eq_some_iff.mp hj
  by_contra hij
  rcases Nat.lt_or_eq_of_le (Nat.le_of_not_lt hij) with hji | rfl
  · exact lt_asymm hmn (List.pairwise_iff_getElem.mp h j i hj' hi' hji)
  · exact lt_irrefl _ hmn

lemma le_of_getElem?_le (h : order.toList.Pairwise (· < ·)) {i j : Nat} {m n : Int}
    (hi : order[i]? = some m) (hj : order[j]? = some n) (hij : i ≤ j) : m ≤ n := by
  by_contra hmn
  exact absurd (lt_of_getElem?_lt h hj hi (lt_of_not_ge hmn)) (Nat.not_lt.mpr hij)

lemma lt_bisect_iff_of_bounds (h : order.toList.Pairwise (· < ·)) (low high : Nat)
    (hs : high ≤ order.size) (hl : ∀ i m, order[i]? = some m → i < low → m < target)
    (hh : ∀ i m, order[i]? = some m → high ≤ i → target ≤ m) {i : Nat} {m : Int}
    (hi : order[i]? = some m) : i < bisect order target low high ↔ m < target := by
  -- Each round keeps the numbers before `low` below the target and those from `high` on not below it.
  fun_induction bisect order target low high with
  | case1 low high hlt mid n hn hnt ih =>
    refine ih hs (fun j k hj hjm => ?_) hh
    exact (le_of_getElem?_le h hj hn (Nat.le_of_lt_succ hjm)).trans_lt hnt
  | case2 low high hlt mid n hn hnt ih =>
    refine ih (by omega) hl (fun j k hj hmj => ?_)
    exact (not_lt.mp hnt).trans (le_of_getElem?_le h hn hj hmj)
  | case3 low high hlt mid hn =>
    have hm : order.size ≤ mid := Array.getElem?_eq_none_iff.mp hn
    omega
  | case4 low high hlt =>
    refine ⟨hl i m hi, fun hm => ?_⟩
    by_contra hc
    exact absurd hm (not_lt.mpr (hh i m hi (by omega)))

/-- The place found parts the lines below the target from the others. -/
lemma lt_bisect_iff (h : order.toList.Pairwise (· < ·)) {i : Nat} {m : Int} (hi : order[i]? = some m) :
    i < bisect order target 0 order.size ↔ m < target := by
  refine lt_bisect_iff_of_bounds h 0 order.size le_rfl (fun j k _ hj => ?_) (fun j k hk hj => ?_) hi
  · exact absurd hj (Nat.not_lt_zero j)
  · exact absurd (Array.getElem?_eq_some_iff.mp hk).1 (Nat.not_lt.mpr hj)

lemma bisect_eq (h : order.toList.Pairwise (· < ·)) {j : Nat} (hj : order[j]? = some target) :
    bisect order target 0 order.size = j := by
  obtain ⟨hj', rfl⟩ := Array.getElem?_eq_some_iff.mp hj
  apply le_antisymm
  · refine Nat.le_of_not_lt fun hlt => ?_
    exact lt_irrefl _ ((lt_bisect_iff h hj).mp hlt)
  · -- A line before that of the target is below it, and the search goes past such lines.
    refine Nat.le_of_not_lt fun hlt => ?_
    have hb := hlt.trans hj'
    have hn := List.pairwise_iff_getElem.mp h _ j hb hj' hlt
    exact lt_irrefl _ ((lt_bisect_iff h (Array.getElem?_eq_getElem hb)).mpr hn)

lemma resolve?_eq_some_iff (h : order.toList.Pairwise (· < ·)) {i : Nat} :
    resolve? order target = some i ↔ order[i]? = some target := by
  constructor
  · intro hr
    simp only [resolve?] at hr
    split at hr
    · rename_i hi
      obtain rfl := Option.some.inj hr
      exact hi
    · cases hr
  · intro hi
    simp only [resolve?, bisect_eq h hi, hi, if_true]

lemma min?_eq_head? {l : List Int} (h : l.Pairwise (· < ·)) : l.min? = l.head? := by
  cases l with
  | nil => rfl
  | cons a l =>
    refine List.min?_eq_some_iff.mpr ⟨List.mem_cons_self, ?_⟩
    intro b hb
    rcases List.mem_cons.mp hb with rfl | hb
    · exact le_rfl
    · exact ((List.pairwise_cons.mp h).1 b hb).le

lemma min?_filter_lt {l : List Int} (h : l.Pairwise (· < ·)) {i : Nat} {n : Int}
    (hn : l[i]? = some n) : (l.filter (n < ·)).min? = l[i + 1]? := by
  induction l generalizing i with
  | nil => cases hn
  | cons a l ih =>
    obtain ⟨ha, hl⟩ := List.pairwise_cons.mp h
    -- The entry itself and those before it are not past it.
    cases i with
    | zero =>
      obtain rfl : a = n := Option.some.inj hn
      have hf : (a :: l).filter (a < ·) = l := by
        rw [List.filter_cons_of_neg (by simp), List.filter_eq_self.mpr (by simpa using ha)]
      rw [hf, min?_eq_head? hl, List.head?_eq_getElem?]
      rfl
    | succ i =>
      have hm : a < n := ha n (List.mem_of_getElem? hn)
      rw [List.filter_cons_of_neg (by simpa using hm.le)]
      exact ih hl hn

end LineBasic.Session
