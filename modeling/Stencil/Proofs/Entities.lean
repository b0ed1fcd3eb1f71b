import Mathlib.Data.List.Infix
import Stencil.Proofs.Harmless

/-!
# Markup as an encoding

Escaping writes each of five characters as an entity and copies all others, one character after the
other. So markup stands for one text alone, and whoever reads it from left to right gets this text
back: an ampersand in markup is always the first character of an entity that was put in, whatever
the text itself looks like, since its own ampersands are written as entities as well.
-/

namespace Stencil.Text.Markup

/-- The characters that escaping replaces. The ampersand is among them, without which a text could
hold what looks like an entity before it is escaped. -/
def specials : List Char := ['&', '<', '>', '"', '\'']

/-- A character that is not special is copied. -/
theorem escapeChar_ordinary {c : Char} (ordinary : c ∉ specials) : escapeChar c = [c] := by
  unfold escapeChar
  split <;> simp_all [specials]

/-- A text without special characters is its own markup. The induction is on its characters. -/
theorem escape_ordinary {text : String} (ordinary : ∀ c ∈ text.toList, c ∉ specials) :
    escape text = text := by
  have each : text.toList.flatMap escapeChar = text.toList.flatMap fun c => [c] :=
    List.flatMap_congr fun c member => escapeChar_ordinary (ordinary c member)
  rw [escape, each, List.flatMap_singleton', String.ofList_toList]

/-- Texts put together are escaped one by one, since every character is escaped on its own. -/
theorem escape_append (first second : String) :
    escape (first ++ second) = escape first ++ escape second := by
  unfold escape
  rw [String.toList_append, List.flatMap_append, String.ofList_append]

/-- The text that markup shows, if the markup has come from a text. It reads from left to right, and
an ampersand that begins none of the entities is taken as it is. -/
def unescape : List Char → List Char
  | [] => []
  | '&' :: 'a' :: 'm' :: 'p' :: ';' :: rest => '&' :: unescape rest
  | '&' :: 'l' :: 't' :: ';' :: rest => '<' :: unescape rest
  | '&' :: 'g' :: 't' :: ';' :: rest => '>' :: unescape rest
  | '&' :: 'q' :: 'u' :: 'o' :: 't' :: ';' :: rest => '"' :: unescape rest
  | '&' :: '#' :: '3' :: '9' :: ';' :: rest => '\'' :: unescape rest
  | c :: rest => c :: unescape rest

/-- A character is read off the front of markup. Of an entity all characters are taken, and nothing
of what follows, because no entity begins another one. -/
theorem unescape_char (c : Char) (rest : List Char) :
    unescape (escapeChar c ++ rest) = c :: unescape rest := by
  by_cases special : c ∈ specials
  · simp only [specials, List.mem_cons, List.not_mem_nil, or_false] at special
    rcases special with rfl | rfl | rfl | rfl | rfl
    · rfl
    · rfl
    · rfl
    · rfl
    · rfl
  · rw [escapeChar_ordinary special]
    have apart : c ≠ '&' := by
      rintro rfl
      exact special List.mem_cons_self
    rw [List.singleton_append, unescape.eq_def]
    split <;> simp_all

/-- Escaping can be undone. The induction is on the characters, each of which is read off the
front. -/
theorem unescape_escape (text : String) : unescape (escape text).toList = text.toList := by
  rw [escape, String.toList_ofList]
  induction text.toList with
  | nil => rfl
  | cons c rest inductionHypothesis =>
    rw [List.flatMap_cons, unescape_char, inductionHypothesis]

/-- Different texts have different markup, since each is what its markup is read as. -/
theorem escape_injective : Function.Injective escape := by
  intro first second same
  have texts := congrArg (fun markup => unescape markup.toList) same
  simp only [unescape_escape] at texts
  exact String.toList_injective texts

/-- What escaping puts in, in the order of the characters. Each begins with an ampersand, ends at a
semicolon and has no other special character, so none is the start of another. -/
def entities : List String := ["&amp;", "&lt;", "&gt;", "&quot;", "&#39;"]

/-- Every ampersand in markup is the first character of an entity. It is said of every end of the
markup that begins with one. -/
def Marked (markup : List Char) : Prop :=
  ∀ behind, '&' :: behind <:+ markup → ∃ entity ∈ entities, entity.toList <+: '&' :: behind

/-- Markup put together is marked if both parts are. An entity that stands at an ampersand of the
first part stands there still when more follows. -/
theorem marked_append {first second : List Char} (before : Marked first)
    (after : Marked second) : Marked (first ++ second) := by
  rintro behind ⟨front, parts⟩
  rcases List.append_eq_append_iff.mp parts with ⟨tail, here, ending⟩ | ⟨gap, -, there⟩
  · cases tail with
    | nil => exact after behind ⟨[], ending⟩
    | cons c more =>
      obtain ⟨rfl, rfl⟩ := List.cons.inj ending
      obtain ⟨entity, listed, begins⟩ := before more ⟨front, here.symm⟩
      exact ⟨entity, listed, begins.trans (List.prefix_append _ second)⟩
  · exact after behind ⟨gap, there.symm⟩

/-- An entity has an ampersand in front and no other, and a character that is copied is none. So
wherever an ampersand stands in markup, an entity begins. -/
theorem marked_escapeChar (c : Char) : Marked (escapeChar c) := by
  have entity {markup : List Char} (each : ∀ ending ∈ markup.tails, ending.head? = some '&' →
      ∃ entity ∈ entities, entity.toList <+: ending) : Marked markup :=
    fun behind ending => each _ ((List.mem_tails _ _).mpr ending) rfl
  unfold escapeChar
  split
  · exact entity (by decide +kernel)
  · exact entity (by decide +kernel)
  · exact entity (by decide +kernel)
  · exact entity (by decide +kernel)
  · exact entity (by decide +kernel)
  · next other _ _ _ _ =>
    intro behind ending
    rcases List.suffix_cons_iff.mp ending with same | none
    · exact absurd (List.cons.inj same).1.symm other
    · exact absurd (List.suffix_nil.mp none) (List.cons_ne_nil _ _)

/-- So it is in the markup of a text, by induction on its characters. -/
theorem marked_escape (text : String) : Marked (escape text).toList := by
  rw [escape, String.toList_ofList]
  induction text.toList with
  | nil => exact fun behind ending => absurd (List.suffix_nil.mp ending) (List.cons_ne_nil _ _)
  | cons c rest inductionHypothesis =>
    rw [List.flatMap_cons]
    exact marked_append (marked_escapeChar c) inductionHypothesis

/-- What is left of marked markup is marked. -/
theorem marked_behind {front markup : List Char} (marked : Marked (front ++ markup)) :
    Marked markup :=
  fun behind ending => marked behind (List.suffix_append_of_suffix ending)

/-- There is no other such markup: with none of the four characters, and an entity at every
ampersand, it is the markup of the text that it is read as. The induction is the one of reading
it. -/
theorem escape_unescape {markup : List Char} (harmless : Harmless markup)
    (marked : Marked markup) : (unescape markup).flatMap escapeChar = markup := by
  have step (c : Char) {rest : List Char} (harmless : Harmless (escapeChar c ++ rest))
      (marked : Marked (escapeChar c ++ rest))
      (later : Harmless rest → Marked rest → (unescape rest).flatMap escapeChar = rest) :
      (unescape (escapeChar c ++ rest)).flatMap escapeChar = escapeChar c ++ rest := by
    rw [unescape_char, List.flatMap_cons, later _ (marked_behind marked)]
    exact harmless_of_subset harmless (List.subset_append_right _ _)
  induction markup using unescape.induct with
  | case1 => rfl
  | case2 rest inductionHypothesis => exact step '&' harmless marked inductionHypothesis
  | case3 rest inductionHypothesis => exact step '<' harmless marked inductionHypothesis
  | case4 rest inductionHypothesis => exact step '>' harmless marked inductionHypothesis
  | case5 rest inductionHypothesis => exact step '"' harmless marked inductionHypothesis
  | case6 rest inductionHypothesis => exact step '\'' harmless marked inductionHypothesis
  | case7 c rest noAmp noLess noGreater noDouble noSingle inductionHypothesis =>
    have copied : c ∉ specials := by
      intro special
      rcases List.mem_cons.mp special with rfl | mark
      · obtain ⟨entity, listed, behind, parts⟩ := marked rest List.suffix_rfl
        simp only [entities, List.mem_cons, List.not_mem_nil, or_false] at listed
        rcases listed with rfl | rfl | rfl | rfl | rfl
        · exact noAmp behind rfl (List.cons.inj parts).2.symm
        · exact noLess behind rfl (List.cons.inj parts).2.symm
        · exact noGreater behind rfl (List.cons.inj parts).2.symm
        · exact noDouble behind rfl (List.cons.inj parts).2.symm
        · exact noSingle behind rfl (List.cons.inj parts).2.symm
      · exact harmless c List.mem_cons_self mark
    have single := escapeChar_ordinary copied
    have read := @step c rest
    rw [single] at read
    exact read harmless marked inductionHypothesis

/-- Escaping loses nothing. It goes through texts that are put together. What it gives has none of
the four characters that open or close a tag or end a quoted part, and every ampersand in it is the
first character of one of the five entities. To read it from left to right, with the character for
each entity and all else as it is, gives the text again, whatever there is in the text. So different
texts have different markup. -/
theorem escape_lossless (first second : String) :
    escape (first ++ second) = escape first ++ escape second ∧
      Harmless (escape first).toList ∧
      (∀ behind, '&' :: behind <:+ (escape first).toList →
        ∃ entity ∈ entities, entity.toList <+: '&' :: behind) ∧
      String.ofList (unescape (escape first).toList) = first ∧
      Function.Injective escape := by
  refine ⟨escape_append first second, harmless_escape first, marked_escape first, ?_,
    escape_injective⟩
  rw [unescape_escape, String.ofList_toList]

/-- A text that looks like an entity has its ampersand written as one, and is not taken for what it
looks like. -/
theorem escape_lossless_entity :
    escape "&amp;lt;" = "&amp;amp;lt;" ∧
      '&' :: "amp;amp;lt;".toList <:+ (escape "&amp;lt;").toList ∧
      (∃ entity ∈ entities, entity.toList <+: '&' :: "amp;amp;lt;".toList) ∧
      String.ofList (unescape (escape "&amp;lt;").toList) = "&amp;lt;" := by
  have written : escape "&amp;lt;" = "&amp;amp;lt;" := rfl
  have ending : '&' :: "amp;amp;lt;".toList <:+ (escape "&amp;lt;").toList := by
    rw [written]
    exact ⟨[], rfl⟩
  obtain ⟨-, -, marked, back, -⟩ := escape_lossless "&amp;lt;" ""
  exact ⟨written, ending, marked _ ending, back⟩

end Stencil.Text.Markup
