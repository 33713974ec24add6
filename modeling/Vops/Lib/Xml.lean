import Mathlib.Data.List.Basic
import Mathlib.Tactic.Common

/-!
# XML as a run of tags and texts

* `Event`, `events` — the tags and the texts of a document, with the entities in them read.
* `elementText`, `stringsOf`, `entriesOf` — an element without children, and the parts of a property list.
* `run_append`, `run_escaped` — a document is read part by part; an escaped text is read as what it says.
* `of_literal` — a literal in a document as the list of its characters.
-/

namespace Xml

/-- What stands between `<` and `>`, or between two of them. -/
inductive Event
  | tag (content : List Char)
  | text (content : List Char)
deriving DecidableEq

/-- Where a document is read: in a text, in an entity of a text, or in a tag. -/
inductive State
  | text (content : List Char)
  | entity (content name : List Char)
  | tag (content : List Char)
deriving DecidableEq

/-- The character of an entity. -/
def entity (name : List Char) : Option Char :=
  if name = ['a', 'm', 'p'] then some '&'
  else if name = ['l', 't'] then some '<'
  else if name = ['g', 't'] then some '>'
  else if name = ['q', 'u', 'o', 't'] then some '"'
  else if name = ['a', 'p', 'o', 's'] then some '\''
  else none

/-- Characters are read: where that leads to, and what was found. -/
def run : State → List Char → Option (State × List Event)
  | s, [] => some (s, [])
  | .text content, c :: cs =>
      if c = '<' then (run (.tag []) cs).map fun r => (r.1, .text content :: r.2)
      else if c = '&' then run (.entity content []) cs
      else run (.text (content ++ [c])) cs
  | .entity content name, c :: cs =>
      if c = ';' then (entity name).bind fun d => run (.text (content ++ [d])) cs
      else run (.entity content (name ++ [c])) cs
  | .tag content, c :: cs =>
      if c = '>' then (run (.text []) cs).map fun r => (r.1, .tag content :: r.2)
      else run (.tag (content ++ [c])) cs

/-- The tags and the texts of a document. -/
def events (document : List Char) : Option (List Event) :=
  match run (.text []) document with
  | some (.text content, es) => some (es ++ [.text content])
  | _ => none

/-! ## Elements -/

/-- The text up to the end of an element. -/
def textIn (name : List Char) : List Event → Option (List Char)
  | .text content :: .tag closed :: _ => if closed = '/' :: name then some content else none
  | _ => none

/-- The text of the first element of a name. -/
def elementText (name : List Char) : List Event → Option (List Char)
  | [] => none
  | .text _ :: es => elementText name es
  | .tag opened :: es => if opened = name then textIn name es else elementText name es

/-- What stands behind the element of a key. -/
def behindKey (key : List Char) : List Event → List Event
  | [] => []
  | .text _ :: es => behindKey key es
  | .tag opened :: es =>
      if opened = "key".toList ∧ textIn opened es = some key then es.drop 2 else behindKey key es

/-- The texts of the elements of an array, up to its end. -/
def strings : List Event → Option (List (List Char))
  | .text _ :: .tag opened :: es =>
      if opened = "/array".toList then some []
      else match es with
        | .text content :: .tag closed :: es =>
            if opened = "string".toList ∧ closed = "/string".toList then (strings es).map (content :: ·) else none
        | _ => none
  | _ => none

/-- The keys and the texts of a dictionary, up to its end. -/
def entries : List Event → Option (List (List Char × List Char))
  | .text _ :: .tag opened :: es =>
      if opened = "/dict".toList then some []
      else match es with
        | .text key :: .tag closed :: .text _ :: .tag opened' :: .text content :: .tag closed' :: es =>
            if [opened, closed, opened', closed'] = ["key", "/key", "string", "/string"].map String.toList then
              (entries es).map ((key, content) :: ·)
            else none
        | _ => none
  | _ => none

/-- The array of strings of a property list under a key. -/
def stringArray (key : List Char) (es : List Event) : Option (List (List Char)) :=
  match behindKey key es with
  | .text _ :: .tag opened :: es => if opened = "array".toList then strings es else none
  | _ => none

/-- The dictionary of strings of a property list under a key. -/
def stringDict (key : List Char) (es : List Event) : Option (List (List Char × List Char)) :=
  match behindKey key es with
  | .text _ :: .tag opened :: es => if opened = "dict".toList then entries es else none
  | _ => none

/-! ## Part by part -/

theorem run_append (s : State) (xs ys : List Char) :
    run s (xs ++ ys) = (run s xs).bind fun r => (run r.1 ys).map fun r' => (r'.1, r.2 ++ r'.2) := by
  induction xs generalizing s with
  | nil => cases h : run s ys <;> simp [run, h]
  | cons c xs ih =>
      cases s with
      | text content =>
          rw [List.cons_append, run, run]
          split_ifs
          · rw [ih]
            cases run (.tag []) xs with
            | none => rfl
            | some r =>
                simp only [Option.bind_some, Option.map_some, Option.map_map]
                rfl
          · exact ih _
          · exact ih _
      | entity content name =>
          rw [List.cons_append, run, run]
          split_ifs
          · cases entity name with
            | none => rfl
            | some d => exact ih _
          · exact ih _
      | tag content =>
          rw [List.cons_append, run, run]
          split_ifs
          · rw [ih]
            cases run (.text []) xs with
            | none => rfl
            | some r =>
                simp only [Option.bind_some, Option.map_some, Option.map_map]
                rfl
          · exact ih _

/-- A part of a document leads from one text to another one, with some events between them. -/
def Leads (content part content' : List Char) (es : List Event) : Prop :=
  run (.text content) part = some (.text content', es)

variable {content content' content'' part part' name : List Char} {es es' : List Event}

theorem Leads.append (h : Leads content part content' es) (h' : Leads content' part' content'' es') :
    Leads content (part ++ part') content'' (es ++ es') := by
  have h : run (.text content) part = some (.text content', es) := h
  have h' : run (.text content') part' = some (.text content'', es') := h'
  rw [Leads, run_append, h, Option.bind_some, h']
  rfl

theorem Leads.nil (content : List Char) : Leads content [] content [] := rfl

/-- A part that begins with a tag ends the text in front of it. -/
theorem Leads.of_tag (h : run (.tag []) part = some (.text content', es)) (content : List Char) :
    Leads content ('<' :: part) content' (.text content :: es) := by
  rw [Leads, run, if_pos rfl, h]
  rfl

/-- A document is read from its beginning to its end. -/
theorem Leads.events (h : Leads [] part content es) : Xml.events part = some (es ++ [.text content]) := by
  rw [Xml.events, show run (.text []) part = _ from h]

/-- How a character is written. -/
def Written (c : Char) (word : List Char) : Prop :=
  ∀ content, Leads content word (content ++ [c]) []

theorem written_self {c : Char} (h : c ≠ '<') (h' : c ≠ '&') : Written c [c] := by
  intro content
  rw [Leads, run, if_neg h, if_neg h']
  rfl

/-- A text is read as what it says. -/
theorem leads_written {write : Char → List Char} (h : ∀ c, Written c (write c)) (content cs : List Char) :
    Leads content (cs.flatMap write) (content ++ cs) [] := by
  induction cs generalizing content with
  | nil =>
      rw [List.append_nil]
      exact Leads.nil content
  | cons c cs ih =>
      have hrest := (h c content).append (ih (content ++ [c]))
      rw [List.append_assoc, List.singleton_append] at hrest
      exact hrest

/-! ## Elements, part by part -/

/-- No element of the name is opened. -/
def skips (name : List Char) (es : List Event) : Bool := es.all fun e => !decide (e = .tag name)

theorem elementText_append (h : skips name es = true) (es' : List Event) :
    elementText name (es ++ es') = elementText name es' := by
  induction es with
  | nil => rfl
  | cons e es ih =>
      rw [skips, List.all_cons, Bool.and_eq_true] at h
      cases e with
      | text content => exact ih h.2
      | tag opened =>
          have hne : opened ≠ name := by
            rintro rfl
            simp at h
          rw [List.cons_append, elementText, if_neg hne]
          exact ih h.2

/-- A literal as the list of its characters. -/
theorem of_literal {s : String} {cs : List Char} (h : s = String.ofList cs) : s.toList = cs := by
  rw [h, String.toList_ofList]

end Xml
