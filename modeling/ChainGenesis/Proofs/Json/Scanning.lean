import Mathlib.Data.List.Basic
import Mathlib.Data.String.Basic

/-!
# Scanning a JSON text

Whether a byte of a JSON text belongs to a string is known from the bytes before it alone: a quote
opens or closes a string, and behind a backslash it does neither. `Place` is what such a scan keeps.

A text is then put together from stretches that begin and end outside of strings. `Stretch` says of
one how many objects are open before and behind it, what it is without its white space, and that
each of its lines is indented by the objects around it; all of this is settled for a text once it is
settled for the pieces (`Stretch.append`).
-/

namespace ChainGenesis.Scan

/-! ## Bytes -/

/-- The UTF-8 bytes of some characters. -/
def utf8 (cs : List Char) : List UInt8 := cs.flatMap String.utf8EncodeChar

theorem utf8_ne_nil {cs : List Char} (h : cs ≠ []) : utf8 cs ≠ [] := by
  obtain ⟨c, rest, rfl⟩ := List.exists_cons_of_ne_nil h
  rw [utf8, List.flatMap_cons]
  exact List.append_ne_nil_of_left_ne_nil String.utf8EncodeChar_ne_nil _

theorem utf8_append (cs ds : List Char) : utf8 (cs ++ ds) = utf8 cs ++ utf8 ds :=
  List.flatMap_append

theorem utf8_spaces (n : Nat) : utf8 (List.replicate n ' ') = List.replicate n ' '.toUInt8 := by
  induction n with
  | zero => rfl
  | succ n ih =>
      rw [List.replicate_succ, List.replicate_succ, ← ih]
      rfl

theorem data_toUTF8 (cs : List Char) : (String.ofList cs).toUTF8.data.toList = utf8 cs := by
  rw [String.toUTF8, String.toByteArray_ofList]
  exact List.toList_data_toByteArray

/-- Beyond ASCII every byte of a character is beyond ASCII. -/
theorem le_of_mem_utf8EncodeChar {c : Char} (hc : 128 ≤ c.toNat) {b : UInt8}
    (h : b ∈ String.utf8EncodeChar c) : 128 ≤ b.toNat := by
  have hval : c.val.toNat = c.toNat := rfl
  have hbyte : ∀ n, 128 ≤ n → n < 256 → 128 ≤ (UInt8.ofNat n).toNat := by
    intro n hlow hhigh
    rw [UInt8.toNat_ofNat', Nat.mod_eq_of_lt hhigh]
    exact hlow
  unfold String.utf8EncodeChar at h
  dsimp only at h
  -- one byte, two, three or four
  split at h
  · omega
  split at h
  · rcases List.mem_pair.mp h with rfl | rfl <;> exact hbyte _ (by omega) (by omega)
  split at h
  · simp only [List.mem_cons, List.not_mem_nil, or_false] at h
    rcases h with rfl | rfl | rfl <;> exact hbyte _ (by omega) (by omega)
  · simp only [List.mem_cons, List.not_mem_nil, or_false] at h
    rcases h with rfl | rfl | rfl | rfl <;> exact hbyte _ (by omega) (by omega)

/-! ## Scanning -/

/-- Where a byte of a JSON text stands: outside of strings, in a string, or in a string behind a
backslash. The quote that opens a string stands outside, and the one that closes it inside. -/
inductive Place where
  | outside
  | inside
  | escaped
  deriving DecidableEq

/-- The place of the byte behind a byte. -/
def Place.next : Place → UInt8 → Place
  | .outside, b => if b = '"'.toUInt8 then .inside else .outside
  | .inside, b =>
    if b = '\\'.toUInt8 then .escaped else if b = '"'.toUInt8 then .outside else .inside
  | .escaped, _ => .inside

/-- The place behind some bytes. -/
def Place.after (place : Place) (bytes : List UInt8) : Place := bytes.foldl Place.next place

/-- Bytes with their places. -/
def placed : Place → List UInt8 → List (Place × UInt8)
  | _, [] => []
  | place, b :: rest => (place, b) :: placed (place.next b) rest

theorem after_append (place : Place) (front back : List UInt8) :
    place.after (front ++ back) = (place.after front).after back := List.foldl_append

theorem placed_append (place : Place) (front back : List UInt8) :
    placed place (front ++ back) = placed place front ++ placed (place.after front) back := by
  induction front generalizing place with
  | nil => rfl
  | cons b front ih =>
      rw [List.cons_append, placed, ih, placed]
      rfl

theorem map_snd_placed (place : Place) (bytes : List UInt8) :
    (placed place bytes).map Prod.snd = bytes := by
  induction bytes generalizing place with
  | nil => rfl
  | cons b rest ih => rw [placed, List.map_cons, ih]

/-- A byte behind bytes that end outside of strings stands outside. -/
theorem mem_placed {front : List UInt8} (h : Place.outside.after front = .outside) (b : UInt8)
    (back : List UInt8) : (Place.outside, b) ∈ placed .outside (front ++ b :: back) := by
  rw [placed_append, h, placed]
  exact List.mem_append_right _ List.mem_cons_self

/-- ASCII white space. -/
def isBlank (b : UInt8) : Bool := (0x9 ≤ b && b ≤ 0xd) || b = 0x20

/-- What is left of a text without the white space outside of its strings. -/
def withoutBlanks (bytes : List UInt8) : List UInt8 :=
  ((placed .outside bytes).filter fun entry => !(entry.1 = .outside && isBlank entry.2)).map
    Prod.snd

/-- A text that is not changed by this has no blank outside of its strings. -/
theorem isBlank_of_withoutBlanks {front back : List UInt8} {b : UInt8}
    (h : withoutBlanks (front ++ b :: back) = front ++ b :: back)
    (hfront : Place.outside.after front = .outside) : isBlank b = false := by
  have hwhole := congrArg List.length (map_snd_placed .outside (front ++ b :: back))
  have hlength := congrArg List.length h
  rw [withoutBlanks, List.length_map, ← hwhole, List.length_map,
    List.length_filter_eq_length_iff] at hlength
  simpa using hlength _ (mem_placed hfront b back)

/-- How often a byte stands outside of strings. -/
def countOutside (b : UInt8) (bytes : List UInt8) : Nat :=
  (placed .outside bytes).count (.outside, b)

section

variable {front back : List UInt8} (h : Place.outside.after front = .outside)
include h

theorem withoutBlanks_append :
    withoutBlanks (front ++ back) = withoutBlanks front ++ withoutBlanks back := by
  rw [withoutBlanks, placed_append, h, List.filter_append, List.map_append]
  rfl

theorem countOutside_append (b : UInt8) :
    countOutside b (front ++ back) = countOutside b front + countOutside b back := by
  rw [countOutside, placed_append, h, List.count_append]
  rfl

end

/-! ## Stretches of a text -/

/-- How a line goes on behind its line break: with two spaces for each object that is open there,
and then with something else. Where the text began `before` objects were open; one that is closed
by the first byte behind the spaces is not counted. -/
def Indented (before : Nat) (front back : List UInt8) : Prop :=
  ∃ m next rest, back = List.replicate (2 * m) ' '.toUInt8 ++ next :: rest ∧ next ≠ ' '.toUInt8
    ∧ before + countOutside '\x7b'.toUInt8 front
      = countOutside '\x7d'.toUInt8 front + m + if next = '\x7d'.toUInt8 then 1 else 0

/-- A stretch of a text that begins and ends outside of strings. There are `before` objects open
before it and `behind` behind it, and without its blanks it is `core`. -/
structure Stretch (before : Nat) (text core : List UInt8) (behind : Nat) : Prop where
  ends : Place.outside.after text = .outside
  balance : before + countOutside '\x7b'.toUInt8 text
    = countOutside '\x7d'.toUInt8 text + behind
  core : withoutBlanks text = core
  breaks : ∀ front back, text = front ++ '\n'.toUInt8 :: back →
    Place.outside.after front = .outside → Indented before front back

theorem Indented.append {before : Nat} {front back : List UInt8} (h : Indented before front back)
    (more : List UInt8) : Indented before front (back ++ more) := by
  obtain ⟨m, next, rest, rfl, hnext, hcount⟩ := h
  exact ⟨m, next, rest ++ more, by simp, hnext, hcount⟩

/-- What stands before a stretch counts for its lines. -/
theorem Stretch.indented_append {before behind : Nat} {text core front back : List UInt8}
    (h : Stretch before text core behind) (hindented : Indented behind front back) :
    Indented before (text ++ front) back := by
  obtain ⟨m, next, rest, hback, hnext, hcount⟩ := hindented
  refine ⟨m, next, rest, hback, hnext, ?_⟩
  have hbalance := h.balance
  rw [countOutside_append h.ends, countOutside_append h.ends]
  omega

/-- A stretch does not end in a line break. -/
theorem Stretch.exists_last {before behind : Nat} {text core : List UInt8}
    (h : Stretch before text core behind) (hne : text ≠ []) :
    ∃ front b, text = front ++ [b] ∧ b ≠ '\n'.toUInt8 := by
  obtain rfl | ⟨front, b, rfl⟩ := List.eq_nil_or_concat' text
  · exact absurd rfl hne
  refine ⟨front, b, rfl, ?_⟩
  rintro rfl
  have hends := h.ends
  rw [after_append] at hends
  -- a line break in a string does not end the string
  cases hfront : Place.outside.after front with
  | outside =>
      obtain ⟨m, next, rest, hback, _⟩ := h.breaks front [] rfl hfront
      exact absurd hback (by simp)
  | inside =>
      rw [hfront] at hends
      exact absurd hends (by decide)
  | escaped =>
      rw [hfront] at hends
      exact absurd hends (by decide)

/-- **Stretches are put together.** -/
theorem Stretch.append {before middle behind : Nat} {text core text' core' : List UInt8}
    (h : Stretch before text core middle) (h' : Stretch middle text' core' behind) :
    Stretch before (text ++ text') (core ++ core') behind := by
  refine ⟨?_, ?_, ?_, fun front back heq hfront => ?_⟩
  · rw [after_append, h.ends, h'.ends]
  · have hbalance := h.balance
    have hbalance' := h'.balance
    rw [countOutside_append h.ends, countOutside_append h.ends]
    omega
  · rw [withoutBlanks_append h.ends, h.core, h'.core]
  -- the line break is in the one stretch or in the other
  rcases List.append_eq_append_iff.mp heq with ⟨front', rfl, htext'⟩ | ⟨more, rfl, hmore⟩
  · rw [after_append, h.ends] at hfront
    exact h.indented_append (h'.breaks front' back htext' hfront)
  · cases more with
    | nil =>
        have hindented := h'.breaks [] back hmore.symm rfl
        simpa using h.indented_append hindented
    | cons b more =>
        obtain ⟨rfl, rfl⟩ := List.cons.inj hmore
        exact (h.breaks front more rfl hfront).append text'

/-! ## Pieces of a text -/

/-- A text without blanks outside of strings is a stretch if its braces are counted. -/
theorem stretch_of_core {before behind : Nat} {text : List UInt8}
    (hends : Place.outside.after text = .outside) (hcore : withoutBlanks text = text)
    (hbalance : before + countOutside '\x7b'.toUInt8 text
      = countOutside '\x7d'.toUInt8 text + behind) : Stretch before text text behind where
  ends := hends
  balance := hbalance
  core := hcore
  breaks := by
    rintro front back rfl hfront
    exact absurd (isBlank_of_withoutBlanks hcore hfront) (by decide)

/-- A text of which no blank and no brace stands outside of strings. -/
theorem stretch_of_quiet {text : List UInt8} (hends : Place.outside.after text = .outside)
    (hquiet : ∀ b, (Place.outside, b) ∈ placed .outside text →
      isBlank b = false ∧ b ≠ '\x7b'.toUInt8 ∧ b ≠ '\x7d'.toUInt8) (depth : Nat) :
    Stretch depth text text depth := by
  have hcount (brace : UInt8) (h : ∀ b, (Place.outside, b) ∈ placed .outside text → b ≠ brace) :
      countOutside brace text = 0 := List.count_eq_zero.mpr fun hmem => h brace hmem rfl
  have hkept : ∀ entry ∈ placed .outside text,
      (!(entry.1 = .outside && isBlank entry.2)) = true := by
    rintro ⟨place, b⟩ hmem
    by_cases hplace : place = .outside
    · subst hplace
      rw [(hquiet b hmem).1, Bool.and_false, Bool.not_false]
    · rw [decide_eq_false hplace, Bool.false_and, Bool.not_false]
  refine stretch_of_core hends ?_ ?_
  · rw [withoutBlanks, List.filter_eq_self.mpr hkept, map_snd_placed]
  · rw [hcount _ fun b hb => (hquiet b hb).2.1, hcount _ fun b hb => (hquiet b hb).2.2]
    omega

/-- An opening brace opens an object. -/
theorem stretch_open (depth : Nat) :
    Stretch depth (utf8 ['\x7b']) (utf8 ['\x7b']) (depth + 1) := by
  refine stretch_of_core (by decide) (by decide) ?_
  rw [show countOutside '\x7b'.toUInt8 (utf8 ['\x7b']) = 1 by decide,
    show countOutside '\x7d'.toUInt8 (utf8 ['\x7b']) = 0 by decide, Nat.zero_add]

/-- A closing brace closes one. -/
theorem stretch_close (depth : Nat) :
    Stretch (depth + 1) (utf8 ['\x7d']) (utf8 ['\x7d']) depth := by
  refine stretch_of_core (by decide) (by decide) ?_
  rw [show countOutside '\x7b'.toUInt8 (utf8 ['\x7d']) = 0 by decide,
    show countOutside '\x7d'.toUInt8 (utf8 ['\x7d']) = 1 by decide, Nat.add_zero, Nat.add_comm 1]

/-! ## Blanks -/

section

variable {b : UInt8} (hb : isBlank b = true) (text : List UInt8)
include hb

theorem next_of_isBlank : Place.outside.next b = .outside := by
  rw [Place.next, if_neg]
  rintro rfl
  exact absurd hb (by decide)

theorem withoutBlanks_cons : withoutBlanks (b :: text) = withoutBlanks text := by
  rw [withoutBlanks, placed, next_of_isBlank hb, List.filter_cons_of_neg]
  · rfl
  · simp [hb]

theorem countOutside_cons {c : UInt8} (hc : isBlank c = false) :
    countOutside c (b :: text) = countOutside c text := by
  rw [countOutside, placed, next_of_isBlank hb, List.count_cons_of_ne]
  · rfl
  · rintro heq
    injection heq with _ heq
    rw [heq, hc] at hb
    exact absurd hb (by decide)

end

/-- A blank in front of a stretch. If it is a line break, the text has to go on as a line does. -/
theorem Stretch.blank {b : UInt8} {before behind : Nat} {text core : List UInt8}
    (h : Stretch before text core behind) (hb : isBlank b = true)
    (hline : b = '\n'.toUInt8 → Indented before [] text) :
    Stretch before (b :: text) core behind where
  ends := by
    rw [Place.after, List.foldl_cons, next_of_isBlank hb]
    exact h.ends
  balance := by
    rw [countOutside_cons hb text (by decide), countOutside_cons hb text (by decide)]
    exact h.balance
  core := by rw [withoutBlanks_cons hb, h.core]
  breaks := by
    intro front back heq hfront
    cases front with
    | nil =>
        obtain ⟨rfl, rfl⟩ := List.cons.inj heq
        exact hline rfl
    | cons c front =>
        obtain ⟨rfl, rfl⟩ := List.cons.inj heq
        rw [Place.after, List.foldl_cons, next_of_isBlank hb] at hfront
        obtain ⟨m, next, rest, hback, hnext, hcount⟩ := h.breaks front back rfl hfront
        refine ⟨m, next, rest, hback, hnext, ?_⟩
        rw [countOutside_cons hb front (by decide), countOutside_cons hb front (by decide)]
        exact hcount

theorem Stretch.space {before behind : Nat} {text core : List UInt8}
    (h : Stretch before text core behind) : Stretch before (' '.toUInt8 :: text) core behind :=
  h.blank (by decide) fun heq => absurd heq (by decide)

theorem Stretch.spaces {before behind : Nat} {text core : List UInt8} (n : Nat)
    (h : Stretch before text core behind) :
    Stretch before (List.replicate n ' '.toUInt8 ++ text) core behind := by
  induction n with
  | zero => exact h
  | succ n ih => exact ih.space

/-- A line of its own, indented by the number of objects that are open in it. -/
theorem Stretch.line {before behind m : Nat} {next : UInt8} {rest core : List UInt8}
    (h : Stretch before (next :: rest) core behind) (hnext : next ≠ ' '.toUInt8)
    (hm : before = m + if next = '\x7d'.toUInt8 then 1 else 0) :
    Stretch before ('\n'.toUInt8 :: (List.replicate (2 * m) ' '.toUInt8 ++ next :: rest)) core
      behind := by
  refine (h.spaces (2 * m)).blank (by decide) fun _ => ⟨m, next, rest, rfl, hnext, ?_⟩
  rw [show countOutside '\x7b'.toUInt8 [] = 0 from rfl,
    show countOutside '\x7d'.toUInt8 [] = 0 from rfl]
  omega

end ChainGenesis.Scan
