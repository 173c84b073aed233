import Mathlib.Data.String.Basic
import ScriptBridge.Aspect
/-!
Aspects around a fragment, one inside the other.

The lines before a fragment and the lines after it are collected by walks of their own, in opposite
directions. Together they are one nest: every aspect stands around all that is further inside
(`wrapInner_eq_foldr`, `wrap_eq_foldr`). What a new first aspect changes follows, and so does the
order of the lines after the fragment (`wrap_nested`).
-/
namespace ScriptBridge.Aspect

/-- The line of a hook; a hook that has nothing to say has none. -/
def hookLine (indent : String) : Option String → String
  | some text => line indent text
  | none => ""

/-- The lines of an aspect around what is further inside. -/
def around (indent : String) (application : Option String) (fragment : String) (a : Aspect)
    (inner : String) : String :=
  hookLine indent (a.before application fragment) ++ inner ++
    hookLine indent (a.after application fragment)

section
variable (indent : String) (application : Option String) (fragment : String)

theorem join_filterMap_cons (hook : Aspect → Option String) (a : Aspect)
    (aspects : List Aspect) :
    String.join ((a :: aspects).filterMap fun a => (hook a).map (line indent)) =
      hookLine indent (hook a) ++
        String.join (aspects.filterMap fun a => (hook a).map (line indent)) := by
  cases h : hook a with
  | none => rw [List.filterMap_cons_none (by rw [h]; rfl), hookLine, String.empty_append]
  | some text => rw [List.filterMap_cons_some (by rw [h]; rfl), String.join_cons, hookLine]

theorem linesBefore_cons (a : Aspect) (aspects : List Aspect) :
    linesBefore indent (a :: aspects) application fragment =
      hookLine indent (a.before application fragment) ++
        linesBefore indent aspects application fragment :=
  join_filterMap_cons indent (·.before application fragment) a aspects

theorem linesAfter_cons (a : Aspect) (aspects : List Aspect) :
    linesAfter indent (a :: aspects) application fragment =
      linesAfter indent aspects application fragment ++
        hookLine indent (a.after application fragment) := by
  rw [linesAfter, List.reverse_cons, List.filterMap_append, String.join_append,
    join_filterMap_cons indent (·.after application fragment) a [], List.filterMap_nil,
    String.join_nil, String.append_empty, linesAfter]

/-- The two walks over a list of aspects build one nest. -/
theorem lines_eq_foldr (aspects : List Aspect) (inner : String) :
    linesBefore indent aspects application fragment ++ inner ++
      linesAfter indent aspects application fragment =
      aspects.foldr (around indent application fragment) inner := by
  induction aspects with
  | nil =>
    change "" ++ inner ++ "" = inner
    rw [String.empty_append, String.append_empty]
  | cons a aspects ih =>
    rw [List.foldr_cons, ← ih, around, linesBefore_cons, linesAfter_cons]
    simp only [String.append_assoc]

theorem wrapInner_eq_foldr (aspects : List Aspect) :
    wrapInner (some aspects) application fragment =
      aspects.foldr (around "  " application fragment) (line "  " fragment) :=
  lines_eq_foldr "  " application fragment aspects (line "  " fragment)

/-- The global aspects stand around what is sent without them. -/
theorem wrap_eq_foldr (globals : List Aspect) (session : Option (List Aspect)) :
    wrap globals session application fragment =
      globals.foldr (around "" application fragment) (wrapInner session application fragment) :=
  lines_eq_foldr "" application fragment globals (wrapInner session application fragment)

/-! ## The order of the lines -/

theorem filterMap_line (aspects : List Aspect) (hook : Aspect → Option String) :
    aspects.filterMap (fun a => (hook a).map (line indent)) =
      (aspects.filterMap hook).map (line indent) :=
  (List.map_filterMap ..).symm

theorem linesBefore_eq (aspects : List Aspect) :
    linesBefore indent aspects application fragment =
      String.join ((aspects.filterMap (·.before application fragment)).map (line indent)) := by
  rw [linesBefore, filterMap_line]

/-- What the hooks say after a fragment is written backwards. -/
theorem linesAfter_eq (aspects : List Aspect) :
    linesAfter indent aspects application fragment =
      String.join ((aspects.filterMap (·.after application fragment)).reverse.map
        (line indent)) := by
  rw [linesAfter, filterMap_line, List.filterMap_reverse]

theorem wrapInner_eq (session : Option (List Aspect)) :
    wrapInner session application fragment =
      linesBefore "  " (session.getD []) application fragment ++
        line (if session.isSome then "  " else "") fragment ++
          linesAfter "  " (session.getD []) application fragment := by
  cases session with
  | none =>
    change line "" fragment = "" ++ line "" fragment ++ ""
    rw [String.empty_append, String.append_empty]
  | some aspects => rfl

end

/-- **Aspects nest.** A new first global aspect stands around the whole script, and a new first
aspect of a session stands around all that is inside the global aspects; a hook that has nothing to
say adds nothing. So the lines after the fragment come in the reverse order of registration, those
of the session before the global ones. -/
theorem wrap_nested (application : Option String) (fragment : String) (globals : List Aspect) :
    let before (aspects : List Aspect) := aspects.filterMap (·.before application fragment)
    let after (aspects : List Aspect) := aspects.filterMap (·.after application fragment)
    let opened := String.join ((before globals).map (line ""))
    let closed := String.join ((after globals).reverse.map (line ""))
    (∀ g session,
      wrap (g :: globals) session application fragment =
        hookLine "" (g.before application fragment) ++
          wrap globals session application fragment ++
            hookLine "" (g.after application fragment)) ∧
    (∀ s inner,
      wrap globals (some inner) application fragment =
        opened ++ wrapInner (some inner) application fragment ++ closed ∧
      wrap globals (some (s :: inner)) application fragment =
        opened ++ (hookLine "  " (s.before application fragment) ++
          wrapInner (some inner) application fragment ++
            hookLine "  " (s.after application fragment)) ++ closed) ∧
    ∀ session,
      wrap globals session application fragment =
        String.join ((before globals).map (line "") ++
          (before (session.getD [])).map (line "  ")) ++
        line (if session.isSome then "  " else "") fragment ++
        String.join ((after (session.getD [])).reverse.map (line "  ") ++
          (after globals).reverse.map (line "")) := by
  intro before after opened closed
  have within (session : Option (List Aspect)) :
      wrap globals session application fragment =
        opened ++ wrapInner session application fragment ++ closed := by
    rw [wrap, linesBefore_eq, linesAfter_eq]
  refine ⟨fun g session => ?_, fun s inner => ⟨within (some inner), ?_⟩, fun session => ?_⟩
  · rw [wrap_eq_foldr, List.foldr_cons, ← wrap_eq_foldr, around]
  · rw [within, wrapInner_eq_foldr, List.foldr_cons, ← wrapInner_eq_foldr, around]
  · rw [within, wrapInner_eq, linesBefore_eq, linesAfter_eq, String.join_append,
      String.join_append]
    simp only [String.append_assoc, opened, closed, before, after]

/-- A fragment with a date, in a session with a time limit: the limit stands inside the application,
and the handler of the date behind both. -/
theorem wrap_dated :
    wrap defaults (some [timeout 5]) (some "application \"Clock\"") "alarm my createDate(1)" =
      "tell application \"Clock\"\r\n" ++
      "  with timeout of 5 seconds\r\n" ++
      "  alarm my createDate(1)\r\n" ++
      "  end timeout\r\n" ++
      "end tell\r\n" ++
      dateHandler ++ "\r\n" := by
  obtain ⟨-, -, ordered⟩ :=
    wrap_nested (some "application \"Clock\"") "alarm my createDate(1)" defaults
  rw [ordered]
  decide +kernel

end ScriptBridge.Aspect
