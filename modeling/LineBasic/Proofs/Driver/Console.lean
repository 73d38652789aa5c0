import LineBasic.Console
import Mathlib.Data.List.Basic
import Mathlib.Data.List.Induction
import Mathlib.Tactic.Common

/-! The console writes what a screen shows. It keeps the last line open and puts off its line feed, but
in the end each screen stands line by line in what was written, with a clear code behind every screen
that was cleared. -/

namespace LineBasic

namespace Event

/-- The lines of a screen as one text, a line feed behind each of them. -/
def setOut (screen : List String) : String := String.join (screen.map (· ++ "\n"))

lemma setOut_eq {screen : List String} (h : screen ≠ []) :
    setOut screen = "\n".intercalate screen ++ "\n" := by
  induction screen with
  | nil => exact absurd rfl h
  | cons l ls ih =>
    cases ls with
    | nil => simp [setOut]
    | cons l' ls =>
      have hs : setOut (l :: l' :: ls) = l ++ "\n" ++ setOut (l' :: ls) := by simp [setOut]
      rw [hs, ih (by simp), String.intercalate_cons_cons]
      simp only [String.append_assoc]

lemma intercalate_extendLast (text : String) (screen : List String) :
    "\n".intercalate (extendLast text screen) = "\n".intercalate screen ++ text := by
  fun_induction extendLast text screen with
  | case1 => simp
  | case2 last => simp
  | case3 l ls hne ih =>
    have he : extendLast text ls ≠ [] := by
      cases ls with
      | nil => exact absurd rfl hne
      | cons l' ls => cases ls <;> simp [extendLast]
    rw [String.intercalate_cons_of_ne_nil he, String.intercalate_cons_of_ne_nil (by simpa using hne), ih]
    simp only [String.append_assoc]

lemma isEmpty_extendLast (text : String) (screen : List String) :
    (extendLast text screen).isEmpty = false := by
  fun_cases extendLast text screen <;> rfl

lemma screen_concat (es : List Event) (e : Event) : screen (es ++ [e]) = onScreen (screen es) e := by
  simp [screen]

/-- What had been told before each of the clears among the events. -/
def beforeClears (es : List Event) : List (List Event) :=
  (List.range es.length).filterMap fun i => if es[i]? = some .clear then some (es.take i) else none

lemma beforeClears_concat (es : List Event) (e : Event) :
    beforeClears (es ++ [e]) = beforeClears es ++ if e = .clear then [es] else [] := by
  have hr : List.range (es ++ [e]).length = List.range es.length ++ [es.length] := by
    rw [List.length_append, List.length_singleton, List.range_succ]
  rw [beforeClears, hr, List.filterMap_append]
  congr 1
  · refine List.filterMap_congr fun i hi => ?_
    have hi : i < es.length := List.mem_range.mp hi
    rw [List.getElem?_append_left hi, List.take_append_of_le_length (Nat.le_of_lt hi)]
  · by_cases he : e = .clear <;> simp [he]

lemma beforeClears_append (es : List Event) {back : List Event} (h : .clear ∉ back) :
    beforeClears (es ++ back) = beforeClears es := by
  induction back using List.reverseRecOn with
  | nil => rw [List.append_nil]
  | append_singleton back e ih =>
    rw [List.mem_append, not_or, List.mem_singleton] at h
    rw [← List.append_assoc, beforeClears_concat, ih h.1, if_neg (Ne.symm h.2), List.append_nil]

end Event

namespace Console

open Event

/-- The console has written a screen behind what stood there before it, and left its last line open. -/
structure Mirrors (c : Console) (before : String) (screen : List String) : Prop where
  written : c.written = before ++ "\n".intercalate screen
  lineOpen : c.lineOpen = !screen.isEmpty

/-- The text of the screens that were cleared. -/
def cleared (es : List Event) : String :=
  String.join ((beforeClears es).map fun told => setOut (screen told) ++ clearCode)

lemma cleared_concat (es : List Event) (e : Event) : cleared (es ++ [e]) =
    cleared es ++ if e = .clear then setOut (screen es) ++ clearCode else "" := by
  rw [cleared, beforeClears_concat, List.map_append, String.join_append]
  by_cases he : e = .clear <;> simp [he, cleared]

section Mirrors

variable {c : Console} {before : String} {screen : List String} (h : c.Mirrors before screen)

include h

lemma Mirrors.finished : c.finishLine.written = before ++ setOut screen := by
  rw [finishLine, h.lineOpen]
  cases screen with
  | nil => simpa [setOut] using h.written
  | cons l ls =>
    rw [setOut_eq (by simp), ← String.append_assoc, ← h.written]
    rfl

lemma Mirrors.handle (e : Event) : (c.handle e).Mirrors
    (before ++ if e = .clear then setOut screen ++ clearCode else "") (onScreen screen e) := by
  have hheard : (Console.mk c.written c.lineOpen (c.heard.push e)).Mirrors before screen := ⟨h.written, h.lineOpen⟩
  have hfin := hheard.finished
  cases e with
  | line text =>
    refine ⟨?_, by simp [Console.handle, onScreen]⟩
    simp only [Console.handle, write, hfin, onScreen, reduceCtorEq, if_false, String.append_empty]
    cases screen with
    | nil => simp [setOut]
    | cons l ls =>
      rw [setOut_eq (by simp), String.intercalate_append_of_ne_nil (by simp) (by simp)]
      simp only [String.intercalate_singleton, String.append_assoc]
  | append text =>
    refine ⟨?_, by simp [Console.handle, onScreen, isEmpty_extendLast]⟩
    simp only [Console.handle, write, onScreen, reduceCtorEq, if_false, String.append_empty]
    rw [h.written, intercalate_extendLast, String.append_assoc]
  | clear =>
    refine ⟨?_, ?_⟩
    · simp only [Console.handle, write, hfin, onScreen, if_true, String.intercalate_nil,
        String.append_empty, String.append_assoc]
    · simp only [Console.handle, write, finishLine, onScreen]
      split <;> simp_all
  | request prompt => exact ⟨by simpa [Console.handle, onScreen] using h.written, h.lineOpen⟩

end Mirrors

lemma mirrors_handleAll (es : List Event) : (handleAll {} es).Mirrors (cleared es) (screen es) := by
  induction es using List.reverseRecOn with
  | nil => exact ⟨rfl, rfl⟩
  | append_singleton es e ih =>
    have hc : handleAll {} (es ++ [e]) = (handleAll {} es).handle e := by simp [handleAll]
    rw [hc, cleared_concat, screen_concat]
    exact ih.handle e

lemma intercalate_concat (sep last : String) (texts : List String) :
    sep.intercalate (texts ++ [last]) = String.join (texts.map (· ++ sep)) ++ last := by
  induction texts with
  | nil => simp
  | cons text texts ih =>
    rw [List.cons_append, String.intercalate_cons_of_ne_nil (by simp), ih]
    simp only [List.map_cons, String.join_cons, String.append_assoc]

lemma written_finishLine (es : List Event) :
    (handleAll {} es).finishLine.written = cleared es ++ setOut (screen es) :=
  (mirrors_handleAll es).finished

/-- Once its last line is finished, a console has written every screen up to the one that is shown:
what stood on it when it was cleared, and the clear code between each of them and the next. -/
theorem console_sets_out_screens (es : List Event) :
    (handleAll {} es).finishLine.written =
        clearCode.intercalate ((beforeClears es ++ [es]).map fun told => setOut (screen told)) ∧
      (.clear ∉ es → (handleAll {} es).finishLine.written = setOut (screen es)) ∧
      ∀ front back, es = front ++ .clear :: back → .clear ∉ back →
        (handleAll {} es).finishLine.written =
          (handleAll {} front).finishLine.written ++ clearCode ++ setOut (screen es) := by
  refine ⟨?_, fun h => ?_, ?_⟩
  · rw [written_finishLine, List.map_append, List.map_singleton, intercalate_concat, List.map_map]
    rfl
  · have hc : beforeClears es = [] := beforeClears_append [] h
    simp [written_finishLine, cleared, hc]
  · rintro front back rfl h
    have hc : cleared (front ++ .clear :: back) = cleared (front ++ [.clear]) := by
      rw [cleared, List.append_cons, beforeClears_append _ h]
      rfl
    rw [written_finishLine, written_finishLine, hc, cleared_concat, if_pos rfl]
    simp only [String.append_assoc]

/-- Text appended to an empty screen, two clears on end, an empty line that is filled, a question. -/
def flicker : List Event :=
  [.append "A", .append "B", .line "", .clear, .clear, .line "", .append "? ", .request "? ", .append "5", .line "C"]

theorem flicker_set_out : screen flicker = ["? 5", "C"] ∧
    (handleAll {} flicker).finishLine.written = "AB\n\n" ++ clearCode ++ clearCode ++ "? 5\nC\n" := by
  obtain ⟨-, -, hlast⟩ := console_sets_out_screens flicker
  obtain ⟨-, -, hfront⟩ := console_sets_out_screens (flicker.take 4)
  obtain ⟨-, hfirst, -⟩ := console_sets_out_screens (flicker.take 3)
  refine ⟨by decide, ?_⟩
  rw [hlast (flicker.take 4) (flicker.drop 5) (by decide) (by decide),
    hfront (flicker.take 3) [] (by decide) (by decide), hfirst (by decide)]
  decide

end Console

end LineBasic
