import Vops.HostOps.AuthorizedKeys
import Vops.Lib.Table

/-!
# What a script printed, by its sections (`host-ops/status-battery.ts`)

* `splitSections` — the texts behind the markers of a script; a marker that comes twice begins anew.
* `Marks` — a text has the marker of a section; `isSome_section` — a section is read exactly when
  its marker was printed.
-/

namespace Vops.StatusBattery

open AuthorizedKeys (Text trim)

def MARK : Text := "@@".toList

/-- The sections that were read so far, and the one that is being read. -/
structure Sections where
  out : List (Text × Text)
  current : Text

/-- One more line. -/
def Sections.read (s : Sections) (line : Text) : Sections :=
  if MARK.isPrefixOf line then
    let current := trim (line.drop MARK.length)
    { out := Table.upsert Prod.fst (current, []) s.out, current }
  else if s.current = [] then s
  else
    let text := ((Table.get Prod.fst s.current s.out).map Prod.snd).getD []
    let text := if text = [] then line else text ++ '\n' :: line
    { s with out := Table.upsert Prod.fst (s.current, text) s.out }

/-- `splitSections(stdout)` -/
def splitSections (stdout : Text) : List (Text × Text) :=
  ((stdout.splitOn '\n').foldl Sections.read ⟨[], []⟩).out.map fun s => (s.1, trim s.2)

/-- One of the sections; `none` where it is undefined. -/
def section? (name : Text) (stdout : Text) : Option Text :=
  (Table.get Prod.fst name (splitSections stdout)).map Prod.snd

/-- The line is the marker of the section. -/
def isMarker (name line : Text) : Bool :=
  MARK.isPrefixOf line && decide (trim (line.drop MARK.length) = name)

/-- Some line of the text is the marker of the section. -/
def Marks (name text : Text) : Prop := ∃ line ∈ text.splitOn '\n', isMarker name line = true

instance (name text : Text) : Decidable (Marks name text) := List.decidableBEx _ _

/-! ## The sections that are read -/

variable {name line : Text} {s : Sections}

/-- The section that is being read is there. -/
def Sections.Open (s : Sections) : Prop :=
  s.current = [] ∨ (Table.get Prod.fst s.current s.out).isSome

/-- One more line: a marker opens its section, and any other line opens none. -/
theorem isSome_read (hopen : s.Open) :
    (Table.get Prod.fst name (s.read line).out).isSome ↔
      (Table.get Prod.fst name s.out).isSome ∨ isMarker name line = true := by
  unfold Sections.read isMarker
  by_cases hmark : MARK.isPrefixOf line = true
  · rw [if_pos hmark, Table.get_upsert]
    by_cases hname : trim (line.drop MARK.length) = name
    · simp [hmark, hname]
    · simp [hname]
  · rw [if_neg hmark]
    by_cases hcurrent : s.current = []
    · simp [hmark, hcurrent]
    · have hthere := hopen.resolve_left hcurrent
      rw [if_neg hcurrent]
      dsimp only
      rw [Table.get_upsert]
      by_cases hname : s.current = name
      · rw [hname] at hthere
        simp [hname, hthere]
      · simp [hmark, hname]

theorem Sections.open_read : (s.read line).Open := by
  unfold Sections.Open Sections.read
  by_cases hmark : MARK.isPrefixOf line = true
  · rw [if_pos hmark]
    right
    simp [Table.get_upsert]
  · rw [if_neg hmark]
    by_cases hcurrent : s.current = []
    · rw [if_pos hcurrent]
      exact .inl hcurrent
    · rw [if_neg hcurrent]
      right
      simp [Table.get_upsert]

/-- Some more lines. -/
theorem isSome_foldl (hopen : s.Open) (lines : List Text) :
    (Table.get Prod.fst name (lines.foldl Sections.read s).out).isSome ↔
      (Table.get Prod.fst name s.out).isSome ∨ ∃ line ∈ lines, isMarker name line = true := by
  induction lines generalizing s with
  | nil => simp
  | cons line lines ih =>
      rw [List.foldl_cons, ih Sections.open_read, isSome_read hopen, or_assoc]
      simp

theorem get_map_trim (name : Text) (out : List (Text × Text)) :
    Table.get Prod.fst name (out.map fun s => (s.1, trim s.2)) =
      (Table.get Prod.fst name out).map fun s => (s.1, trim s.2) := by
  induction out with
  | nil => rfl
  | cons s out ih =>
      rw [List.map_cons, Table.get_cons, Table.get_cons, ih]
      by_cases h : s.1 = name <;> simp [h]

/-- A section is read exactly when its marker was printed. -/
theorem isSome_section (name stdout : Text) :
    (section? name stdout).isSome ↔ Marks name stdout := by
  have hread := @isSome_foldl name ⟨[], []⟩ (.inl rfl) (stdout.splitOn '\n')
  rw [section?, splitSections, get_map_trim, Option.isSome_map, Option.isSome_map]
  exact hread.trans (or_iff_right (by simp))

end Vops.StatusBattery
