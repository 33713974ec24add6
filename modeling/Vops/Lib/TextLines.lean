import Mathlib.Data.List.DropRight
import Mathlib.Tactic.Common

/-!
# Lines and fields of a text

* `TextLines.lines` — the lines of a text; the last one may lack its newline.
* `TextLines.join` — the text of some lines, each ended by a newline, with `lines_join`.
* `TextLines.trimmed` — the lines of a text without the empty ones at its end, with `trimmed_join`.
* `TextLines.splitOn_join`, `join_splitOn`, `infix_of_mem_splitOn` — the pieces between the newlines.
* `TextLines.fields` — the fields of a line, between runs of space, with `fields_field`.
-/

namespace TextLines

/-- What holds of the characters of a text is decided along the text, not over all characters. -/
instance (priority := 2000) decidableForallMem (cs : List Char) (P : Char → Prop)
    [DecidablePred P] : Decidable (∀ c ∈ cs, P c) :=
  List.decidableBAll P cs

/-! ## Lines -/

/-- The lines of a text. -/
def lines : List Char → List (List Char)
  | [] => []
  | c :: cs =>
      if c = '\n' then [] :: lines cs
      else match lines cs with
        | line :: rest => (c :: line) :: rest
        | [] => [[c]]

/-- The text of some lines. -/
def join : List (List Char) → List Char
  | [] => []
  | line :: rest => line ++ '\n' :: join rest

variable {cs : List Char} {line : List Char} {ls : List (List Char)}

theorem lines_append_newline (h : '\n' ∉ line) (rest : List Char) :
    lines (line ++ '\n' :: rest) = line :: lines rest := by
  induction line with
  | nil => simp [lines]
  | cons c line ih =>
      obtain ⟨hc, hline⟩ := List.ne_and_not_mem_of_not_mem_cons h
      simp [lines, Ne.symm hc, ih hline]

/-- The lines of a text that starts with some lines. -/
theorem lines_join_append (h : ∀ l ∈ ls, '\n' ∉ l) (rest : List Char) :
    lines (join ls ++ rest) = ls ++ lines rest := by
  induction ls with
  | nil => rfl
  | cons l ls ih =>
      obtain ⟨hl, hls⟩ := List.forall_mem_cons.mp h
      rw [join, List.append_assoc, List.cons_append, lines_append_newline hl, ih hls,
        List.cons_append]

theorem lines_join (h : ∀ l ∈ ls, '\n' ∉ l) : lines (join ls) = ls := by
  simpa [lines] using lines_join_append h []

theorem join_append (ls ls' : List (List Char)) : join (ls ++ ls') = join ls ++ join ls' := by
  induction ls with
  | nil => rfl
  | cons l ls ih => simp [join, ih]

theorem newline_notMem_of_mem_lines (h : line ∈ lines cs) : '\n' ∉ line := by
  induction cs generalizing line with
  | nil => cases h
  | cons c cs ih =>
      unfold lines at h
      split at h
      · rcases List.mem_cons.mp h with rfl | h
        · simp
        · exact ih h
      · next hc =>
        split at h
        next first rest heq =>
          rcases List.mem_cons.mp h with rfl | h
          · have hfirst : '\n' ∉ first := ih (heq ▸ List.mem_cons_self)
            simp [Ne.symm hc, hfirst]
          · exact ih (heq ▸ List.mem_cons_of_mem _ h)
        next =>
          obtain rfl : line = [c] := by simpa using h
          simp [Ne.symm hc]

/-! ## Without the empty lines at the end -/

/-- Some lines without the empty ones at their end. -/
def dropBlank (ls : List (List Char)) : List (List Char) := ls.rdropWhile (· = [])

/-- The lines of a text without the newlines at its end. -/
def trimmed (cs : List Char) : List (List Char) := dropBlank (lines cs)

theorem dropBlank_isPrefix (ls : List (List Char)) : dropBlank ls <+: ls :=
  List.rdropWhile_prefix _ ls

theorem dropBlank_concat_nil (ls : List (List Char)) : dropBlank (ls ++ [[]]) = dropBlank ls :=
  List.rdropWhile_concat_pos _ _ _ (by simp)

theorem dropBlank_concat (ls : List (List Char)) (h : line ≠ []) :
    dropBlank (ls ++ [line]) = ls ++ [line] :=
  List.rdropWhile_concat_neg _ _ _ (by simpa using h)

theorem trimmed_sublist (cs : List Char) : List.Sublist (trimmed cs) (lines cs) :=
  (dropBlank_isPrefix _).sublist

theorem newline_notMem_of_mem_trimmed (h : line ∈ trimmed cs) : '\n' ∉ line :=
  newline_notMem_of_mem_lines ((trimmed_sublist cs).subset h)

theorem trimmed_join (h : ∀ l ∈ ls, '\n' ∉ l) : trimmed (join ls) = dropBlank ls := by
  rw [trimmed, lines_join h]

/-- Empty lines at the end can be dropped before or after a filter that keeps them. -/
theorem dropBlank_filter {P : List Char → Bool} (hP : P [] = true) (ls : List (List Char)) :
    dropBlank ((dropBlank ls).filter P) = dropBlank (ls.filter P) := by
  induction ls using List.reverseRecOn with
  | nil => rfl
  | append_singleton ls l ih =>
      by_cases hl : l = []
      · subst hl
        rw [dropBlank_concat_nil, ih, List.filter_append]
        simp [hP, dropBlank_concat_nil]
      · rw [dropBlank_concat ls hl]

/-- Splitting at the newlines gives the lines, and an empty piece after the last newline. -/
theorem dropBlank_splitOn (cs : List Char) : dropBlank (cs.splitOn '\n') = trimmed cs := by
  have key : cs.splitOn '\n' = lines cs ∨ cs.splitOn '\n' = lines cs ++ [[]] := by
    induction cs with
    | nil => exact .inr (by simp [lines, List.splitOn_nil])
    | cons c cs ih =>
        rw [List.splitOn_cons_eq_if_modifyHead]
        by_cases hc : c = '\n'
        · subst hc
          rcases ih with ih | ih
          · exact .inl (by simp [lines, ih])
          · exact .inr (by simp [lines, ih])
        · rcases ih with ih | ih
          · obtain ⟨l, ls, hl⟩ := List.exists_cons_of_ne_nil (List.splitOn_ne_nil '\n' cs)
            rw [hl] at ih
            exact .inl (by simp [lines, hc, hl, ← ih])
          · cases hlines : lines cs with
            | nil => exact .inl (by simp [lines, hc, ih, hlines])
            | cons l ls => exact .inr (by simp [lines, hc, ih, hlines])
  rcases key with h | h
  · rw [h, trimmed]
  · rw [h, dropBlank_concat_nil, trimmed]

theorem trimmed_rdropWhile (cs : List Char) : trimmed (cs.rdropWhile (· = '\n')) = trimmed cs := by
  induction cs using List.reverseRecOn with
  | nil => rfl
  | append_singleton cs c ih =>
      by_cases hc : c = '\n'
      · subst hc
        rw [List.rdropWhile_concat_pos _ _ _ (by simp), ih, ← dropBlank_splitOn (cs ++ ['\n']),
          List.splitOn_append_cons_self, List.splitOn_nil, dropBlank_concat_nil, dropBlank_splitOn]
      · rw [List.rdropWhile_concat_neg _ _ _ (by simpa using hc)]

/-- The last piece of a text that does not end in a newline. -/
theorem dropBlank_splitOn_concat {c : Char} (hc : c ≠ '\n') (cs : List Char) :
    dropBlank ((cs ++ [c]).splitOn '\n') = (cs ++ [c]).splitOn '\n' := by
  obtain ⟨pieces, p, hp⟩ : ∃ pieces p, (cs ++ [c]).splitOn '\n' = pieces ++ [p ++ [c]] := by
    induction cs with
    | nil => exact ⟨[], [], by simpa using List.splitOn_eq_singleton (by simpa using Ne.symm hc)⟩
    | cons d cs ih =>
        obtain ⟨pieces, p, hp⟩ := ih
        rw [List.cons_append, List.splitOn_cons_eq_if_modifyHead, hp]
        by_cases hd : d = '\n'
        · exact ⟨[] :: pieces, p, by simp [hd]⟩
        · cases pieces with
          | nil => exact ⟨[], d :: p, by simp [hd]⟩
          | cons q qs => exact ⟨(d :: q) :: qs, p, by simp [hd]⟩
  rw [hp, dropBlank_concat _ (by simp)]

/-- The lines without the empty ones at the end, by splitting the text without the newlines at its
end. -/
theorem trimmed_eq_splitOn (cs : List Char) : trimmed cs =
    if cs.rdropWhile (· = '\n') = [] then [] else (cs.rdropWhile (· = '\n')).splitOn '\n' := by
  rw [← trimmed_rdropWhile]
  cases h : cs.rdropWhile (· = '\n') using List.reverseRecOn with
  | nil => simp [trimmed, lines, dropBlank]
  | append_singleton init c =>
      have hc : c ≠ '\n' := by
        have hlast := List.rdropWhile_last_not (p := (· = '\n')) cs (by simp [h])
        simpa [h] using hlast
      rw [if_neg (by simp), ← dropBlank_splitOn, dropBlank_splitOn_concat hc]

/-! ## Pieces -/

/-- The pieces of a text of some lines, and the empty one behind the last newline. -/
theorem splitOn_join (h : ∀ l ∈ ls, '\n' ∉ l) : (join ls).splitOn '\n' = ls ++ [[]] := by
  induction ls with
  | nil => exact List.splitOn_nil _
  | cons l ls ih =>
      obtain ⟨hl, hls⟩ := List.forall_mem_cons.mp h
      rw [join, List.splitOn_append_cons_self_of_not_mem hl, ih hls, List.cons_append]

/-- The pieces of a text, each ended by a newline. -/
theorem join_splitOn (cs : List Char) : join (cs.splitOn '\n') = cs ++ ['\n'] := by
  induction cs with
  | nil => simp [List.splitOn_nil, join]
  | cons c cs ih =>
      rw [List.splitOn_cons_eq_if_modifyHead]
      by_cases hc : c = '\n'
      · simp [hc, join, ih]
      · obtain ⟨p, ps, hp⟩ := List.exists_cons_of_ne_nil (List.splitOn_ne_nil '\n' cs)
        rw [hp] at ih ⊢
        rw [if_neg (by simpa using hc), List.modifyHead_cons, join, List.cons_append, List.cons_append]
        exact congrArg (c :: ·) ih

/-- The first lines of some lines have the same text only when they are all of them. -/
theorem join_eq_of_isPrefix {ls' : List (List Char)} (h : ls <+: ls') (heq : join ls = join ls') :
    ls = ls' := by
  obtain ⟨rest, rfl⟩ := h
  rw [join_append] at heq
  cases rest with
  | nil => rw [List.append_nil]
  | cons l rest =>
      have hnil := List.self_eq_append_right.mp heq
      simp [join] at hnil

/-- A piece lies within the text and has no separator; the first one is where the text begins. -/
theorem splitOn_spec (sep : Char) (cs : List Char) : ∃ p ps, cs.splitOn sep = p :: ps ∧ p <+: cs ∧
    sep ∉ p ∧ ∀ q ∈ ps, q <:+: cs ∧ sep ∉ q := by
  induction cs with
  | nil => exact ⟨[], [], List.splitOn_nil _, List.prefix_rfl, List.not_mem_nil, by simp⟩
  | cons c cs ih =>
      obtain ⟨p, ps, hsplit, hp, hnl, hps⟩ := ih
      rw [List.splitOn_cons_eq_if_modifyHead, hsplit]
      by_cases hc : c = sep
      · refine ⟨[], p :: ps, by simp [hc], List.nil_prefix, List.not_mem_nil, ?_⟩
        refine List.forall_mem_cons.mpr ⟨⟨hp.isInfix.trans (List.suffix_cons c cs).isInfix, hnl⟩, ?_⟩
        exact fun q hq => ⟨(hps q hq).1.trans (List.suffix_cons c cs).isInfix, (hps q hq).2⟩
      · refine ⟨c :: p, ps, by simp [hc], List.cons_prefix_cons.mpr ⟨rfl, hp⟩, ?_, ?_⟩
        · exact List.not_mem_cons_of_ne_of_not_mem (Ne.symm hc) hnl
        · exact fun q hq => ⟨(hps q hq).1.trans (List.suffix_cons c cs).isInfix, (hps q hq).2⟩

theorem infix_of_mem_splitOn {sep : Char} {q : List Char} (h : q ∈ cs.splitOn sep) :
    q <:+: cs ∧ sep ∉ q := by
  obtain ⟨p, ps, hsplit, hp, hnl, hps⟩ := splitOn_spec sep cs
  rw [hsplit] at h
  rcases List.mem_cons.mp h with rfl | hq
  · exact ⟨hp.isInfix, hnl⟩
  · exact hps q hq

/-! ## Fields -/

variable {sp : Char → Bool}

/-- The fields of a text: what stands between runs of space. -/
def fields (sp : Char → Bool) : List Char → List (List Char)
  | [] => [[]]
  | c :: cs =>
      if sp c then
        if (cs.head?.map sp).getD false then fields sp cs else [] :: fields sp cs
      else match fields sp cs with
        | field :: rest => (c :: field) :: rest
        | [] => [[c]]

theorem fields_ne_nil (cs : List Char) : fields sp cs ≠ [] := by
  induction cs with
  | nil => simp [fields]
  | cons c cs ih =>
      unfold fields
      split
      · split
        · exact ih
        · simp
      · split <;> simp

/-- No field has a space in it. -/
theorem not_space_of_mem_fields {field : List Char} (h : field ∈ fields sp cs) :
    ∀ c ∈ field, sp c = false := by
  induction cs generalizing field with
  | nil =>
      obtain rfl : field = [] := by simpa [fields] using h
      simp
  | cons c cs ih =>
      unfold fields at h
      split at h
      · split at h
        · exact ih h
        · rcases List.mem_cons.mp h with rfl | h
          · simp
          · exact ih h
      · next hc =>
        split at h
        next first rest heq =>
          rcases List.mem_cons.mp h with rfl | h
          · have hfirst := ih (heq ▸ List.mem_cons_self : first ∈ fields sp cs)
            exact List.forall_mem_cons.mpr ⟨by simpa using hc, hfirst⟩
          · exact ih (heq ▸ List.mem_cons_of_mem _ h)
        next heq => exact absurd heq (fields_ne_nil cs)

/-- A field before a space. -/
theorem fields_append {field : List Char} (h : ∀ c ∈ field, sp c = false) {d : Char}
    (hd : sp d = true) {rest : List Char} (hrest : (rest.head?.map sp).getD false = false) :
    fields sp (field ++ d :: rest) = field :: fields sp rest := by
  induction field with
  | nil => simp [fields, hd, hrest]
  | cons c field ih =>
      obtain ⟨hc, hfield⟩ := List.forall_mem_cons.mp h
      simp [fields, hc, ih hfield]

theorem fields_space {d : Char} (hd : sp d = true) (rest : List Char) :
    ∃ more, fields sp (d :: rest) = [] :: more := by
  induction rest generalizing d with
  | nil => exact ⟨[[]], by simp [fields, hd]⟩
  | cons e rest ih =>
      cases he : sp e with
      | false => exact ⟨fields sp (e :: rest), by rw [fields, if_pos hd]; simp [he]⟩
      | true =>
          obtain ⟨more, hmore⟩ := ih he
          exact ⟨more, by rw [fields, if_pos hd]; simpa [he] using hmore⟩

/-- A field at the start of a text, before a space or at its end. -/
theorem fields_head {field : List Char} (h : ∀ c ∈ field, sp c = false) {rest : List Char}
    (hrest : ∀ d ∈ rest.head?, sp d = true) :
    ∃ more, fields sp (field ++ rest) = field :: more := by
  induction field with
  | nil =>
      cases rest with
      | nil => exact ⟨[], rfl⟩
      | cons d rest => exact fields_space (hrest d rfl) rest
  | cons c field ih =>
      obtain ⟨hc, hfield⟩ := List.forall_mem_cons.mp h
      obtain ⟨more, hmore⟩ := ih hfield
      exact ⟨more, by simp [fields, hc, hmore]⟩

/-- The first field stands at the start of a text, before a space or at its end. -/
theorem prefix_of_fields {first : List Char} {more : List (List Char)} (h : fields sp cs = first :: more) :
    ∃ rest, cs = first ++ rest ∧ ∀ d ∈ rest.head?, sp d = true := by
  have hfield : ∀ c ∈ cs.takeWhile fun c => !sp c, sp c = false := by
    intro c hc
    simpa using List.mem_takeWhile_imp hc
  have hrest : ∀ d ∈ (cs.dropWhile fun c => !sp c).head?, sp d = true := by
    intro d hd
    have hne : cs.dropWhile (fun c => !sp c) ≠ [] := by
      intro hnil
      rw [hnil] at hd
      cases hd
    have hnot := List.head_dropWhile_not (fun c => !sp c) hne
    rw [List.head?_eq_some_head hne] at hd
    obtain rfl := Option.some.inj hd
    simpa using hnot
  obtain ⟨more', hmore⟩ := fields_head hfield hrest
  rw [List.takeWhile_append_dropWhile, h] at hmore
  obtain ⟨rfl, -⟩ := List.cons.inj hmore
  exact ⟨_, List.takeWhile_append_dropWhile.symm, hrest⟩

/-- A field before a run of space. -/
theorem fields_gap {field gap : List Char} (h : ∀ c ∈ field, sp c = false) (hgap : ∀ c ∈ gap, sp c = true)
    (hne : gap ≠ []) {rest : List Char} (hrest : (rest.head?.map sp).getD false = false) :
    fields sp (field ++ (gap ++ rest)) = field :: fields sp rest := by
  induction field with
  | nil =>
      induction gap with
      | nil => exact absurd rfl hne
      | cons d gap ih =>
          obtain ⟨hd, hgap'⟩ := List.forall_mem_cons.mp hgap
          cases gap with
          | nil => exact fields_append h hd hrest
          | cons e gap =>
              rw [List.nil_append, List.cons_append, fields, if_pos hd, if_pos]
              · exact ih hgap' (List.cons_ne_nil _ _)
              · simp [hgap' e List.mem_cons_self]
  | cons c field ih =>
      obtain ⟨hc, hfield⟩ := List.forall_mem_cons.mp h
      simp [fields, hc, ih hfield]

/-- A field that is not the first stands behind the first one and a run of space. -/
theorem eq_of_fields {first : List Char} {more : List (List Char)} (h : fields sp cs = first :: more)
    (hne : more ≠ []) : ∃ gap rest, cs = first ++ (gap ++ rest) ∧ gap ≠ [] ∧ (∀ c ∈ gap, sp c = true) ∧
      (rest.head?.map sp).getD false = false ∧ fields sp rest = more := by
  have hfield : ∀ c ∈ cs.takeWhile fun c => !sp c, sp c = false := by
    intro c hc
    simpa using List.mem_takeWhile_imp hc
  have hsplit := List.takeWhile_append_dropWhile (p := fun c => !sp c) (l := cs)
  generalize cs.takeWhile (fun c => !sp c) = field at hfield hsplit
  generalize hrest : cs.dropWhile (fun c => !sp c) = behind at hsplit
  have hgap : ∀ c ∈ behind.takeWhile sp, sp c = true := fun c hc => List.mem_takeWhile_imp hc
  have hbehind := List.takeWhile_append_dropWhile (p := sp) (l := behind)
  have hhead : ((behind.dropWhile sp).head?.map sp).getD false = false := by
    cases hd : behind.dropWhile sp with
    | nil => rfl
    | cons c rest =>
        have hc := List.head_dropWhile_not sp (l := behind) (by simp [hd])
        simpa [hd] using hc
  by_cases hempty : behind.takeWhile sp = []
  · have hnil : behind = [] := by
      cases hb : behind with
      | nil => rfl
      | cons c rest =>
          have hc := List.head_dropWhile_not (fun c => !sp c) (l := cs) (by simp [hrest, hb])
          have hcs : sp c = true := by simpa [hrest, hb] using hc
          rw [hb, List.takeWhile_cons_of_pos hcs] at hempty
          exact absurd hempty (List.cons_ne_nil _ _)
    rw [← hsplit, hnil, List.append_nil] at h
    have hone : ∀ field : List Char, (∀ c ∈ field, sp c = false) → fields sp field = [field] := by
      intro field hfield
      induction field with
      | nil => rfl
      | cons c field ih =>
          obtain ⟨hc, hfield'⟩ := List.forall_mem_cons.mp hfield
          simp [fields, hc, ih hfield']
    rw [hone field hfield] at h
    exact absurd (List.cons.inj h).2.symm hne
  · have hfields := fields_gap hfield hgap hempty hhead
    rw [hbehind, hsplit, h] at hfields
    obtain ⟨rfl, rfl⟩ := List.cons.inj hfields
    exact ⟨_, _, by rw [hbehind, hsplit], hempty, hgap, hhead, rfl⟩

end TextLines
