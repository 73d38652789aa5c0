import LineBasic.Proofs.Number.Reading
import LineBasic.Text.Lines

/-! Trimmed texts, and the lines of a text. Lines that are put together with line feeds come apart
again as they were. -/

namespace LineBasic.Text

/-- No blank at either end. -/
def Trimmed (cs : List Char) : Prop :=
  (∀ c ∈ cs.head?, isBlank c = false) ∧ ∀ c ∈ cs.getLast?, isBlank c = false

section Trimmed

variable {cs : List Char}

lemma Trimmed.trimBy_eq (h : Trimmed cs) : trimBy isBlank cs = cs := by
  have hf : ∀ c ∈ ([] : List Char), isBlank c = true := by simp
  exact trimBy_append hf h.1 h.2

lemma trim_of_trimmed {s : String} (h : Trimmed s.toList) : trim s = s := by
  rw [trim, h.trimBy_eq, String.ofList_toList]

lemma Trimmed.of_suffix (h : Trimmed cs) {rest : List Char} (hs : rest <:+ cs)
    (hh : ∀ c ∈ rest.head?, isBlank c = false) : Trimmed rest := by
  obtain ⟨front, rfl⟩ := hs
  refine ⟨hh, fun c hc => h.2 c ?_⟩
  rw [List.getLast?_append, Option.mem_def.mp hc]
  rfl

lemma head?_dropWhile {c : Char} {p : Char → Bool} (h : c ∈ (cs.dropWhile p).head?) : p c = false := by
  rw [Option.mem_def] at h
  have hc := List.head?_dropWhile_not p cs
  rw [h] at hc
  simpa using hc

lemma trimmed_trimBy (cs : List Char) : Trimmed (trimBy isBlank cs) := by
  have hl (c : Char) (hc : c ∈ (trimBy isBlank cs).getLast?) : isBlank c = false := by
    rw [trimBy, List.getLast?_reverse] at hc
    exact head?_dropWhile hc
  refine ⟨fun c hc => ?_, hl⟩
  -- Trimming the end keeps the first character, if it leaves any.
  obtain ⟨back, hb⟩ : trimBy isBlank cs <+: cs.dropWhile isBlank := by
    rw [trimBy, ← List.reverse_suffix, List.reverse_reverse]
    exact List.dropWhile_suffix _
  have hh : c ∈ (cs.dropWhile isBlank).head? := by
    rw [← hb, List.head?_append, Option.mem_def.mp hc]
    rfl
  exact head?_dropWhile hh

lemma trimmed_trim (s : String) : Trimmed (trim s).toList := by
  rw [trim, String.toList_ofList]
  exact trimmed_trimBy s.toList

end Trimmed

lemma mem_of_mem_trim {s : String} {c : Char} (h : c ∈ (trim s).toList) : c ∈ s.toList := by
  rw [trim, String.toList_ofList, trimBy, List.mem_reverse] at h
  apply (List.dropWhile_suffix isBlank).subset
  exact List.mem_reverse.mp ((List.dropWhile_suffix isBlank).subset h)

def NoBreak (cs : List Char) : Prop := ∀ c ∈ cs, isLineBreak c = false

section Lines

variable {line cs : List Char} {c : Char}

lemma linesFrom_cons (hc : isLineBreak c = false) (line cs : List Char) :
    linesFrom line (c :: cs) = linesFrom (c :: line) cs := by
  rw [linesFrom.eq_def]
  split
  · rename_i h
    cases h
  · rename_i h
    obtain ⟨rfl, -⟩ := List.cons.inj h
    cases hc
  · rename_i h
    obtain ⟨rfl, rfl⟩ := List.cons.inj h
    simp [hc]

lemma linesFrom_append (h : NoBreak cs) (line rest : List Char) :
    linesFrom line (cs ++ rest) = linesFrom (cs.reverse ++ line) rest := by
  induction cs generalizing line with
  | nil => rfl
  | cons c cs ih =>
    obtain ⟨hc, hcs⟩ := List.forall_mem_cons.mp h
    rw [List.cons_append, linesFrom_cons hc, ih hcs]
    simp

lemma linesFrom_newline (line rest : List Char) :
    linesFrom line ('\n' :: rest) = line.reverse :: linesFrom [] rest := by
  rw [linesFrom]
  · simp [isLineBreak]
  · simp

/-- Line endings are boundaries before they become line feeds and after. -/
lemma linesFrom_unifyNewlines (line cs : List Char) : linesFrom line (unifyNewlines cs) = linesFrom line cs := by
  fun_induction unifyNewlines cs generalizing line with
  | case1 => rfl
  | case2 cs ih => rw [linesFrom_newline, ih, linesFrom]
  | case3 cs hcs ih =>
    rw [linesFrom_newline, ih, linesFrom]
    · rfl
    · intro rest _ h
      exact hcs rest h
  | case4 c cs _ hc ih =>
    rw [linesFrom, linesFrom, ih, ih]
    · exact fun _ h _ => hc h
    · exact fun _ h _ => hc h

lemma lines_unifyNewlines (text : String) : lines (.ofList (unifyNewlines text.toList)) = lines text := by
  rw [lines, String.toList_ofList, linesFrom_unifyNewlines, lines]

/-- A line, and a line feed and the rest if there is one. -/
lemma linesFrom_intercalate {lines : List (List Char)} (h : ∀ line ∈ lines, line ≠ [] ∧ NoBreak line) :
    linesFrom [] (['\n'].intercalate lines) = lines := by
  induction lines with
  | nil => rfl
  | cons line lines ih =>
    obtain ⟨⟨hne, hb⟩, hs⟩ := List.forall_mem_cons.mp h
    cases lines with
    | nil =>
      rw [List.intercalate_singleton, ← List.append_nil line, linesFrom_append hb]
      simp [linesFrom, hne]
    | cons next lines =>
      rw [List.intercalate_cons_cons, List.append_assoc, linesFrom_append hb, List.singleton_append,
        linesFrom_newline, ih hs]
      simp

lemma lines_intercalate {texts : List String}
    (h : ∀ text ∈ texts, text ≠ "" ∧ NoBreak text.toList) : lines ("\n".intercalate texts) = texts := by
  have hl : ("\n".intercalate texts).toList = ['\n'].intercalate (texts.map String.toList) := by
    simp
  rw [lines, hl, linesFrom_intercalate]
  · simp
  · intro line hm
    obtain ⟨text, ht, rfl⟩ := List.mem_map.mp hm
    exact ⟨by simpa using (h text ht).1, (h text ht).2⟩

lemma noBreak_nil : NoBreak [] := by simp [NoBreak]

lemma noBreak_of_mem_linesFrom {text : List Char} (hl : NoBreak line) (h : text ∈ linesFrom line cs) :
    NoBreak text := by
  have hr {line : List Char} (hl : NoBreak line) : NoBreak line.reverse :=
    fun c hc => hl c (List.mem_reverse.mp hc)
  fun_induction linesFrom line cs with
  | case1 => simp at h
  | case2 line _ =>
    obtain rfl := List.mem_singleton.mp h
    exact hr hl
  | case3 line cs ih =>
    rcases List.mem_cons.mp h with rfl | h
    · exact hr hl
    · exact ih noBreak_nil h
  | case4 line c cs _ hc ih =>
    rcases List.mem_cons.mp h with rfl | h
    · exact hr hl
    · exact ih noBreak_nil h
  | case5 line c cs _ hc ih => exact ih (List.forall_mem_cons.mpr ⟨by simpa using hc, hl⟩) h

lemma noBreak_of_mem_lines {source text : String} (h : text ∈ lines source) : NoBreak text.toList := by
  obtain ⟨line, hm, rfl⟩ := List.mem_map.mp h
  rw [String.toList_ofList]
  exact noBreak_of_mem_linesFrom noBreak_nil hm

end Lines

end LineBasic.Text
