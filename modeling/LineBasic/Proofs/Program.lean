import LineBasic.Program
import Mathlib

/-! Stored programs keep their line numbers in ascending order. -/

namespace LineBasic

namespace Numbered

variable {α : Type}

def Ascending (p : Numbered α) : Prop := p.numbers.Pairwise (· < ·)

lemma ascending_cons {n : Int} {a : α} {p : Numbered α} :
    Ascending ((n, a) :: p) ↔ (∀ m ∈ p.numbers, n < m) ∧ p.Ascending := List.pairwise_cons

lemma mem_of_mem_insert {n : Int} {a : α} {p : Numbered α} {b : Int × α} (h : b ∈ p.insert n a) :
    b = (n, a) ∨ b ∈ p := by
  induction p with
  | nil => exact .inl (List.mem_singleton.mp h)
  | cons c p ih =>
    obtain ⟨k, c⟩ := c
    simp only [insert] at h
    split_ifs at h with h₁ h₂
    · exact List.mem_cons.mp h
    · exact (List.mem_cons.mp h).imp_right (List.mem_cons_of_mem _)
    · rcases List.mem_cons.mp h with rfl | h
      · exact .inr List.mem_cons_self
      · exact (ih h).imp_right (List.mem_cons_of_mem _)

lemma mem_numbers_insert {n m : Int} {a : α} {p : Numbered α} (h : m ∈ (p.insert n a).numbers) :
    m = n ∨ m ∈ p.numbers := by
  obtain ⟨b, hb, rfl⟩ := List.mem_map.mp h
  rcases mem_of_mem_insert hb with rfl | hb
  · exact .inl rfl
  · exact .inr (List.mem_map_of_mem hb)

lemma insert_of_last {n : Int} {a : α} {p : Numbered α} (h : ∀ m ∈ p.numbers, m < n) :
    p.insert n a = p ++ [(n, a)] := by
  induction p with
  | nil => rfl
  | cons c p ih =>
    obtain ⟨k, c⟩ := c
    obtain ⟨hk, hp⟩ := List.forall_mem_cons.mp h
    have hlt : k < n := hk
    rw [insert, if_neg (by omega), if_neg (by omega), ih hp]
    rfl

lemma Ascending.insert {p : Numbered α} (h : p.Ascending) (n : Int) (a : α) :
    (p.insert n a).Ascending := by
  induction p with
  | nil => simp [Numbered.insert, Ascending, numbers]
  | cons b p ih =>
    obtain ⟨k, b⟩ := b
    obtain ⟨hk, hp⟩ := ascending_cons.mp h
    simp only [Numbered.insert]
    split_ifs with h₁ h₂
    · refine ascending_cons.mpr ⟨?_, h⟩
      intro m hm
      simp only [numbers, List.map_cons, List.mem_cons] at hm
      rcases hm with rfl | hm
      · exact h₁
      · exact h₁.trans (hk m hm)
    · exact ascending_cons.mpr ⟨h₂ ▸ hk, hp⟩
    · refine ascending_cons.mpr ⟨?_, ih hp⟩
      intro m hm
      rcases mem_numbers_insert hm with rfl | hm
      · omega
      · exact hk m hm

lemma Ascending.erase {p : Numbered α} (h : p.Ascending) (n : Int) : (p.erase n).Ascending :=
  h.sublist (List.filter_sublist.map _)

lemma find?_eq_some_iff {p : Numbered α} (h : p.Ascending) {n : Int} {a : α} :
    p.find? n = some a ↔ (n, a) ∈ p := by
  induction p with
  | nil => simp [find?]
  | cons b p ih =>
    obtain ⟨k, b⟩ := b
    obtain ⟨hk, hp⟩ := ascending_cons.mp h
    simp only [find?, List.lookup_cons, List.mem_cons, Prod.mk.injEq]
    by_cases hn : n = k
    · subst hn
      have hn : (n, a) ∉ p := fun hm => lt_irrefl n (hk n (List.mem_map_of_mem hm))
      simp [hn, eq_comm]
    · have hb : (n == k) = false := by simpa using hn
      simpa [hn, hb, find?] using ih hp

lemma find?_cons (m n : Int) (a : α) (p : Numbered α) :
    find? m ((n, a) :: p) = if m = n then some a else p.find? m := by
  rw [find?, List.lookup_cons]
  by_cases h : m = n
  · simp [h]
  · have hb : (m == n) = false := by simpa using h
    simp [h, hb, find?]

lemma find?_insert (m n : Int) (a : α) (p : Numbered α) :
    (p.insert n a).find? m = if m = n then some a else p.find? m := by
  induction p with
  | nil => exact find?_cons m n a []
  | cons b p ih =>
    obtain ⟨k, b⟩ := b
    rw [insert]
    split
    · exact find?_cons m n a _
    · split
      · rename_i hk
        subst hk
        rw [find?_cons, find?_cons]
        split_ifs <;> rfl
      · rw [find?_cons, find?_cons, ih]
        split_ifs <;> first | rfl | omega

lemma find?_erase (m n : Int) (p : Numbered α) :
    (p.erase n).find? m = if m = n then none else p.find? m := by
  induction p with
  | nil => simp [erase, find?]
  | cons b p ih =>
    obtain ⟨k, b⟩ := b
    by_cases hk : k = n
    · subst hk
      have he : erase k ((k, b) :: p) = erase k p := by simp [erase]
      rw [he, ih, find?_cons]
      split_ifs <;> rfl
    · have he : erase n ((k, b) :: p) = (k, b) :: erase n p := by simp [erase, hk]
      rw [he, find?_cons, find?_cons, ih]
      split_ifs <;> first | rfl | omega

lemma Ascending.ext {p q : Numbered α} (hp : p.Ascending) (hq : q.Ascending)
    (h : ∀ n, p.find? n = q.find? n) : p = q := by
  have hm : ∀ b, b ∈ p ↔ b ∈ q := by
    rintro ⟨n, a⟩
    rw [← find?_eq_some_iff hp, ← find?_eq_some_iff hq, h]
  have hd {r : Numbered α} (hr : r.Ascending) : r.Nodup := List.Nodup.of_map _ (hr.imp ne_of_lt)
  refine ((List.perm_ext_iff_of_nodup (hd hp) (hd hq)).mpr hm).eq_of_pairwise ?_ (List.pairwise_map.mp hp)
    (List.pairwise_map.mp hq)
  intro b c _ _ hbc hcb
  exact absurd hcb hbc.not_gt

lemma exists_find? {p : Numbered α} (h : p.Ascending) {n : Int} (hn : n ∈ p.numbers) :
    ∃ a, p.find? n = some a := by
  obtain ⟨⟨m, a⟩, hm, rfl⟩ := List.mem_map.mp hn
  exact ⟨a, (find?_eq_some_iff h).mpr hm⟩

end Numbered

lemma Program.forall_mem_store {Q : Int × String → Prop} {p : Program} (h : ∀ b ∈ p, Q b) {n : Int}
    {code : String} (hq : code ≠ "" → Q (n, code)) : ∀ b ∈ p.store n code, Q b := by
  intro b hb
  rw [Program.store] at hb
  split at hb
  · exact h b (List.mem_of_mem_filter hb)
  · rename_i hc
    rcases Numbered.mem_of_mem_insert hb with rfl | hb
    · exact hq hc
    · exact h b hb

lemma Program.store_ascending {p : Program} (h : p.Ascending) (n : Int) (code : String) :
    (p.store n code).Ascending := by
  rw [Program.store]
  split
  · exact h.erase n
  · exact h.insert n code

lemma Program.find?_store (p : Program) (m n : Int) (code : String) : (p.store n code).find? m =
    if m = n then (if code = "" then none else some code) else p.find? m := by
  rw [Program.store]
  split
  · exact Numbered.find?_erase m n p
  · exact Numbered.find?_insert m n code p

end LineBasic
