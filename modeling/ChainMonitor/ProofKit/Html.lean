import ChainMonitor.ProofKit.Strings

/-! Escaping for HTML, and the tags that a text has. -/

namespace ChainMonitor.ProofKit.Html

open Replace

/-- The characters that HTML gives a meaning. -/
def special : List Char := ['&', '<', '>']

def escapeChar : Char → List Char
  | '&' => "&amp;".toList
  | '<' => "&lt;".toList
  | '>' => "&gt;".toList
  | c => [c]

def escape (cs : List Char) : List Char := cs.flatMap escapeChar

/-- The text that an escaped one stands for, read from left to right. -/
def unescape : List Char → List Char
  | '&' :: 'a' :: 'm' :: 'p' :: ';' :: cs => '&' :: unescape cs
  | '&' :: 'l' :: 't' :: ';' :: cs => '<' :: unescape cs
  | '&' :: 'g' :: 't' :: ';' :: cs => '>' :: unescape cs
  | c :: cs => c :: unescape cs
  | [] => []

/-- What may follow an ampersand. -/
def entities : List (List Char) := ["amp;".toList, "lt;".toList, "gt;".toList]

/-- Each ampersand of the text starts an entity. -/
def EntitiesOnly (cs : List Char) : Prop :=
  ∀ before after, cs = before ++ '&' :: after → ∃ e ∈ entities, e <+: after

/-- A tag and the text from it to the next one. -/
structure Tag where
  name : List Char
  content : List Char
  deriving DecidableEq

/-- What a tag and its content look like in a text, without the `<`. -/
def Tag.segment (t : Tag) : List Char := t.name ++ '>' :: t.content

def render (ts : List Tag) : List Char := ts.flatMap fun t => '<' :: t.segment

/-- What follows a `<`, up to the next one: the tag ends at the first `>`. -/
def tagOf (segment : List Char) : Tag where
  name := segment.takeWhile (· ≠ '>')
  content := (segment.dropWhile (· ≠ '>')).drop 1

/-- The tags of a text, in order. -/
def tags (cs : List Char) : List Tag := (cs.splitOn '<').tail.map tagOf

/-- The content of the first element of the name that has no tag in it. -/
def firstElement (name : List Char) : List Tag → Option (List Char)
  | t :: u :: rest =>
    if t.name = name ∧ u.name = '/' :: name then some t.content else firstElement name (u :: rest)
  | _ => none

/-! ### Escaping -/

theorem escape_cons (c : Char) (cs : List Char) : escape (c :: cs) = escapeChar c ++ escape cs :=
  List.flatMap_cons

theorem escapeChar_of_not_mem {c : Char} (h : c ∉ special) : escapeChar c = [c] := by
  simp only [special, List.mem_cons, List.not_mem_nil, or_false, not_or] at h
  unfold escapeChar
  split <;> simp_all

theorem cases_special (c : Char) : c = '&' ∨ c = '<' ∨ c = '>' ∨ c ∉ special := by
  by_cases h : c ∈ special
  · simp only [special, List.mem_cons, List.not_mem_nil, or_false] at h
    rcases h with h | h | h
    · exact .inl h
    · exact .inr (.inl h)
    · exact .inr (.inr (.inl h))
  · exact .inr (.inr (.inr h))

/-- Three replacements in this order escape a text: the ampersands they write are not replaced. -/
theorem replaceChar_thrice (cs : List Char) :
    replaceChar '>' "&gt;".toList
      (replaceChar '<' "&lt;".toList (replaceChar '&' "&amp;".toList cs)) = escape cs := by
  induction cs with
  | nil => rfl
  | cons c cs ih =>
    rw [replaceChar_cons, replaceChar_append, replaceChar_append, ih, escape_cons]
    congr 1
    rcases cases_special c with rfl | rfl | rfl | h
    · decide
    · decide
    · decide
    · rw [escapeChar_of_not_mem h]
      simp only [special, List.mem_cons, List.not_mem_nil, or_false, not_or] at h
      simp [replaceChar, h]

theorem unescape_cons {c : Char} (h : c ≠ '&') (cs : List Char) :
    unescape (c :: cs) = c :: unescape cs := by
  rw [unescape]
  all_goals
    rintro - rfl
    exact absurd rfl h

theorem unescape_escape (cs : List Char) : unescape (escape cs) = cs := by
  induction cs with
  | nil => rfl
  | cons c cs ih =>
    rw [escape_cons]
    rcases cases_special c with rfl | rfl | rfl | h
    · exact congrArg ('&' :: ·) ih
    · exact congrArg ('<' :: ·) ih
    · exact congrArg ('>' :: ·) ih
    · have hc : c ≠ '&' := fun hc => h (by simp [special, hc])
      rw [escapeChar_of_not_mem h, List.singleton_append, unescape_cons hc, ih]

/-! ### Texts without tags -/

/-- No tag is in the text, and its ampersands are those of entities. -/
structure Plain (cs : List Char) : Prop where
  lt : '<' ∉ cs
  gt : '>' ∉ cs
  entities : EntitiesOnly cs

/-- None of these characters is in the text. -/
def Bare (cs : List Char) : Prop := ∀ c ∈ cs, c ∉ special

instance (cs : List Char) : Decidable (Bare cs) := List.decidableBAll (fun c => c ∉ special) cs

variable {cs ds : List Char}

theorem EntitiesOnly.append (hcs : EntitiesOnly cs) (hds : EntitiesOnly ds) :
    EntitiesOnly (cs ++ ds) := by
  intro before after h
  rcases List.append_eq_append_iff.mp h with ⟨rest, rfl, hrest⟩ | ⟨rest, hrest, hafter⟩
  · exact hds rest after hrest
  · cases rest with
    | nil => exact hds [] after hafter.symm
    | cons c rest =>
      obtain ⟨rfl, rfl⟩ := List.cons.inj hafter
      obtain ⟨e, he, hprefix⟩ := hcs before rest hrest
      exact ⟨e, he, hprefix.trans (List.prefix_append rest ds)⟩

theorem entitiesOnly_of_not_mem (h : '&' ∉ cs) : EntitiesOnly cs :=
  fun _ _ hcs => absurd (hcs ▸ by simp) h

theorem Bare.plain (h : Bare cs) : Plain cs where
  lt hlt := h '<' hlt (by decide)
  gt hgt := h '>' hgt (by decide)
  entities := entitiesOnly_of_not_mem fun hamp => h '&' hamp (by decide)

theorem Bare.append (hcs : Bare cs) (hds : Bare ds) : Bare (cs ++ ds) := fun c hc =>
  (List.mem_append.mp hc).elim (hcs c) (hds c)

theorem Plain.append (hcs : Plain cs) (hds : Plain ds) : Plain (cs ++ ds) where
  lt h := (List.mem_append.mp h).elim hcs.lt hds.lt
  gt h := (List.mem_append.mp h).elim hcs.gt hds.gt
  entities := hcs.entities.append hds.entities

theorem plain_intercalate {lines : List (List Char)} (hsep : Plain ds)
    (h : ∀ line ∈ lines, Plain line) : Plain (ds.intercalate lines) := by
  induction lines with
  | nil => exact Bare.plain nofun
  | cons line lines ih =>
    have hline := h line List.mem_cons_self
    cases lines with
    | nil => rwa [List.intercalate_singleton]
    | cons next lines =>
      rw [List.intercalate_cons_cons, List.append_assoc]
      exact hline.append (hsep.append (ih fun l hl => h l (List.mem_cons_of_mem line hl)))

theorem entitiesOnly_entity {e : List Char} (he : e ∈ entities) : EntitiesOnly ('&' :: e) := by
  intro before after h
  cases before with
  | nil =>
    obtain ⟨-, rfl⟩ := List.cons.inj h
    exact ⟨e, he, List.prefix_rfl⟩
  | cons c before =>
    obtain ⟨-, rfl⟩ := List.cons.inj h
    have hamp : ∀ e ∈ entities, '&' ∉ e := by decide
    exact absurd (by simp) (hamp _ he)

theorem plain_escapeChar (c : Char) : Plain (escapeChar c) := by
  rcases cases_special c with rfl | rfl | rfl | h
  · exact ⟨by decide, by decide, entitiesOnly_entity (e := "amp;".toList) (by decide)⟩
  · exact ⟨by decide, by decide, entitiesOnly_entity (e := "lt;".toList) (by decide)⟩
  · exact ⟨by decide, by decide, entitiesOnly_entity (e := "gt;".toList) (by decide)⟩
  · rw [escapeChar_of_not_mem h]
    refine Bare.plain fun d hd => ?_
    rwa [List.mem_singleton.mp hd]

theorem plain_escape (cs : List Char) : Plain (escape cs) := by
  induction cs with
  | nil => exact Bare.plain nofun
  | cons c cs ih =>
    rw [escape_cons]
    exact (plain_escapeChar c).append ih

/-! ### The tags of a text -/

variable {lead : List Char} {ts : List Tag}

theorem Tag.lt_not_mem_segment {t : Tag} (hname : Bare t.name) (hcontent : Plain t.content) :
    '<' ∉ t.segment := by
  rw [Tag.segment, List.mem_append, List.mem_cons]
  rintro (h | h | h)
  · exact hname.plain.lt h
  · exact absurd h (by decide)
  · exact hcontent.lt h

theorem splitOn_render (hlead : '<' ∉ lead) (hts : ∀ t ∈ ts, Bare t.name ∧ Plain t.content) :
    (lead ++ render ts).splitOn '<' = lead :: ts.map Tag.segment := by
  induction ts generalizing lead with
  | nil =>
    rw [render, List.flatMap_nil, List.append_nil, List.splitOn_eq_singleton hlead, List.map_nil]
  | cons t ts ih =>
    obtain ⟨hname, hcontent⟩ := hts t List.mem_cons_self
    have hrest := ih (Tag.lt_not_mem_segment hname hcontent) fun u hu =>
      hts u (List.mem_cons_of_mem t hu)
    rw [render, List.flatMap_cons, List.cons_append,
      List.splitOn_append_cons_self_of_not_mem hlead, ← render, hrest, List.map_cons]

theorem tagOf_segment {t : Tag} (hname : Bare t.name) : tagOf t.segment = t := by
  have hne : ∀ c ∈ t.name, (decide (c ≠ '>')) = true := fun c hc =>
    decide_eq_true fun hgt => hname.plain.gt (hgt ▸ hc)
  rw [tagOf, Tag.segment, List.takeWhile_append_of_pos hne, List.dropWhile_append_of_pos hne]
  simp

/-- The tags of a text that is written tag by tag are those. -/
theorem tags_render (hlead : '<' ∉ lead) (hts : ∀ t ∈ ts, Bare t.name ∧ Plain t.content) :
    tags (lead ++ render ts) = ts := by
  rw [tags, splitOn_render hlead hts, List.tail_cons, List.map_map]
  conv_rhs => rw [← List.map_id ts]
  exact List.map_congr_left fun t ht => tagOf_segment (hts t ht).1

theorem entitiesOnly_render (hlead : EntitiesOnly lead)
    (hts : ∀ t ∈ ts, Bare t.name ∧ Plain t.content) : EntitiesOnly (lead ++ render ts) := by
  induction ts generalizing lead with
  | nil => simpa [render] using hlead
  | cons t ts ih =>
    obtain ⟨hname, hcontent⟩ := hts t List.mem_cons_self
    have hlt : EntitiesOnly ['<'] := entitiesOnly_of_not_mem (by decide)
    have hgt : EntitiesOnly ['>'] := entitiesOnly_of_not_mem (by decide)
    have hsegment : EntitiesOnly (['<'] ++ (t.name ++ (['>'] ++ t.content))) :=
      hlt.append (hname.plain.entities.append (hgt.append hcontent.entities))
    have hrest := ih (hlead.append hsegment) fun u hu => hts u (List.mem_cons_of_mem t hu)
    simpa [render, Tag.segment] using hrest

end ChainMonitor.ProofKit.Html
