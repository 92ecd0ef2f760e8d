import ChainGenesis.Json.Layout
import ChainGenesis.Proofs.Decimal
import ChainGenesis.Proofs.Json.Scanning

/-!
# White space of the canonical layouts

What a layout writes of a document is a stretch of text that leaves as many objects open as it
found, and without its white space it is what the compact layout writes. The proof follows the two
writers, which differ in line breaks and behind colons only. Nothing that a string holds counts:
each of its quotes, backslashes and controls is escaped.
-/

namespace ChainGenesis

namespace Scan

/-! ## Strings -/

/-- Bytes that stand in a string from the first to the last. -/
def Within (bytes : List UInt8) : Prop :=
  Place.inside.after bytes = .inside ∧ ∀ entry ∈ placed .inside bytes, entry.1 ≠ .outside

instance (bytes : List UInt8) : Decidable (Within bytes) := inferInstanceAs (Decidable (_ ∧ _))

theorem Within.append {front back : List UInt8} (h : Within front) (h' : Within back) :
    Within (front ++ back) := by
  refine ⟨by rw [after_append, h.1, h'.1], fun entry hmem => ?_⟩
  rw [placed_append, h.1, List.mem_append] at hmem
  exact hmem.elim (h.2 entry) (h'.2 entry)

/-- What is beyond ASCII does not end a string. -/
theorem within_of_le {bytes : List UInt8} (h : ∀ b ∈ bytes, 128 ≤ b.toNat) : Within bytes := by
  induction bytes with
  | nil => exact ⟨rfl, fun entry hmem => absurd hmem (by simp [placed])⟩
  | cons b rest ih =>
      rw [List.forall_mem_cons] at h
      have hnext : Place.inside.next b = .inside := by
        have hslash : b ≠ '\\'.toUInt8 := fun heq => absurd h.1 (by rw [heq]; decide)
        have hquote : b ≠ '"'.toUInt8 := fun heq => absurd h.1 (by rw [heq]; decide)
        rw [Place.next, if_neg hslash, if_neg hquote]
      obtain ⟨hafter, hplaced⟩ := ih h.2
      refine ⟨?_, fun entry hmem => ?_⟩
      · rw [Place.after, List.foldl_cons, hnext]
        exact hafter
      · rw [placed, hnext, List.mem_cons] at hmem
        rcases hmem with rfl | hmem
        · exact Place.noConfusion
        · exact hplaced entry hmem

/-- However a character is written in a string, it does not end the string. -/
theorem within_jsonChar (c : Char) : Within (utf8 (Text.jsonChar c)) := by
  by_cases hc : c.toNat < 128
  · have hall : ∀ n < 128, Within (utf8 (Text.jsonChar (Char.ofNat n))) := by decide +kernel
    have hwithin := hall c.toNat hc
    rwa [Char.ofNat_toNat] at hwithin
  · -- none of the characters that are escaped is so far up
    have hne : ∀ d : Char, d.toNat < 128 → c ≠ d := fun d hd heq => hc (heq ▸ hd)
    have hplain : Text.jsonChar c = [c] := by
      unfold Text.jsonChar
      rw [if_neg (hne _ (by decide)), if_neg (hne _ (by decide)), if_neg (hne _ (by decide)),
        if_neg (hne _ (by decide)), if_neg (hne _ (by decide)), if_neg (hne _ (by decide)),
        if_neg (hne _ (by decide)), if_neg (by omega), if_neg (by omega)]
    rw [hplain, utf8, List.flatMap_singleton]
    exact within_of_le fun b hb => le_of_mem_utf8EncodeChar (by omega) hb

theorem within_flatMap (cs : List Char) : Within (utf8 (cs.flatMap Text.jsonChar)) := by
  induction cs with
  | nil => decide
  | cons c cs ih =>
      rw [List.flatMap_cons, utf8_append]
      exact (within_jsonChar c).append ih

/-! ## Plain text -/

/-- Whether a character stands for itself outside of strings, no white space and no brace. -/
def isPlain (c : Char) : Bool :=
  (String.utf8EncodeChar c).all fun b =>
    b ≠ '"'.toUInt8 && !isBlank b && b ≠ '\x7b'.toUInt8 && b ≠ '\x7d'.toUInt8

theorem stretch_of_plain (cs : List Char) (h : cs.all isPlain = true) (depth : Nat) :
    Stretch depth (utf8 cs) (utf8 cs) depth := by
  have hbytes : ∀ b ∈ utf8 cs, b ≠ '"'.toUInt8
      ∧ (isBlank b = false ∧ b ≠ '\x7b'.toUInt8 ∧ b ≠ '\x7d'.toUInt8) := by
    intro b hb
    obtain ⟨c, hc, hmem⟩ := List.mem_flatMap.mp hb
    have hplain := List.all_eq_true.mp (List.all_eq_true.mp h c hc) b hmem
    simpa [and_assoc] using hplain
  refine stretch_of_quiet ?_ (fun b hmem => ?_) depth
  · -- without a quote no string begins
    generalize utf8 cs = text at hbytes
    induction text with
    | nil => rfl
    | cons b rest ih =>
        rw [List.forall_mem_cons] at hbytes
        rw [Place.after, List.foldl_cons, Place.next, if_neg hbytes.1.1]
        exact ih hbytes.2
  · have hsnd := List.mem_map_of_mem (f := Prod.snd) hmem
    rw [map_snd_placed] at hsnd
    exact (hbytes b hsnd).2

theorem stretch_char {c : Char} (h : isPlain c = true) (depth : Nat) :
    Stretch depth (utf8 [c]) (utf8 [c]) depth :=
  stretch_of_plain [c] (by rw [List.all_cons, h, List.all_nil, Bool.and_true]) depth

theorem isPlain_of_isDigit {c : Char} (h : c.isDigit = true) : isPlain c = true := by
  have hall : ∀ n < 58, 48 ≤ n → isPlain (Char.ofNat n) = true := by decide +kernel
  obtain ⟨hlow, hhigh⟩ := Char.isDigit_iff_toNat.mp h
  have hplain := hall c.toNat (Nat.lt_succ_of_le hhigh) hlow
  rwa [Char.ofNat_toNat] at hplain

/-- A string is a stretch of its own, whatever it holds. -/
theorem stretch_json (text : String) (depth : Nat) :
    Stretch depth (utf8 (Text.json text)) (utf8 (Text.json text)) depth := by
  obtain ⟨hafter, hplaced⟩ := within_flatMap text.toList
  have hsplit : utf8 (Text.json text)
      = '"'.toUInt8 :: (utf8 (text.toList.flatMap Text.jsonChar) ++ ['"'.toUInt8]) := by
    rw [Text.json, utf8_append]
    rfl
  have hopen : Place.outside.next '"'.toUInt8 = .inside := by decide
  rw [hsplit]
  refine stretch_of_quiet ?_ (fun b hmem => ?_) depth
  · rw [Place.after, List.foldl_cons, hopen]
    show Place.inside.after _ = _
    rw [after_append, hafter]
    decide
  · -- only the first quote stands outside
    rw [placed, hopen, placed_append, hafter, List.mem_cons, List.mem_append] at hmem
    rcases hmem with heq | hmem | hmem
    · injection heq with _ heq
      rw [heq]
      decide
    · exact absurd rfl (hplaced _ hmem)
    · exact absurd hmem (by simp [placed])

/-! ## Numbers -/

/-- A decimal is written with digits, the point and what the format adds. -/
theorem all_magnitude {p : Char → Bool} {f : DecimalFormat}
    (hdigit : ∀ c, c.isDigit = true → p c = true) (hdot : p '.' = true)
    (hend : f.integralEnd.all p = true) (hpos : f.positiveExponent.all p = true)
    (hneg : f.negativeExponent.all p = true) (d : Decimal) : (f.magnitude d).all p = true := by
  have hdigits (n : Nat) : (Nat.toDigits 10 n).all p = true :=
    List.all_eq_true.mpr fun c hc => hdigit c (isDigit_of_mem_toDigits hc)
  have hzeros (n : Nat) : (List.replicate n '0').all p = true :=
    List.all_eq_true.mpr fun c hc => hdigit c (by rw [List.eq_of_mem_replicate hc]; rfl)
  have htake (n k : Nat) : ((Nat.toDigits 10 n).take k).all p = true :=
    List.all_eq_true.mpr fun c hc => List.all_eq_true.mp (hdigits n) c (List.mem_of_mem_take hc)
  have hdrop (n k : Nat) : ((Nat.toDigits 10 n).drop k).all p = true :=
    List.all_eq_true.mpr fun c hc => List.all_eq_true.mp (hdigits n) c (List.mem_of_mem_drop hc)
  unfold DecimalFormat.magnitude
  dsimp only
  split
  · -- positional: an integer, a point within the digits, or zeros before them
    split
    · rw [List.all_append, List.all_append, hdigits, hzeros, hend]
      rfl
    split
    · rw [List.all_append, List.all_cons, htake, hdot, hdrop]
      rfl
    · rw [List.all_append, List.all_append, List.all_cons, List.all_cons, hdigit '0' rfl, hdot,
        hzeros, hdigits]
      rfl
  · -- one digit, the others behind a point if there are any, and the exponent
    rw [List.all_append, List.all_append, htake, Bool.true_and, Bool.and_eq_true]
    constructor
    · split
      · rfl
      · rw [List.all_cons, hdot, hdrop]
        rfl
    · split
      · rw [List.all_append, hpos, hdigits]
        rfl
      · rw [List.all_append, hneg, hdigits]
        rfl

theorem magnitude_ne_nil (f : DecimalFormat) (d : Decimal) : f.magnitude d ≠ [] := by
  have hdigits : Nat.toDigits 10 d.digits ≠ [] := Nat.toDigits_ne_nil
  have htake : ∀ k, (Nat.toDigits 10 d.digits).take (k + 1) ≠ [] := by
    intro k
    rw [Ne, List.take_eq_nil_iff]
    exact fun hor => hor.elim (Nat.succ_ne_zero k) hdigits
  unfold DecimalFormat.magnitude
  dsimp only
  split
  · split
    · exact List.append_ne_nil_of_left_ne_nil (List.append_ne_nil_of_left_ne_nil hdigits _) _
    split
    · exact List.append_ne_nil_of_left_ne_nil (htake _) _
    · exact List.append_ne_nil_of_right_ne_nil _ hdigits
  · exact List.append_ne_nil_of_left_ne_nil (List.append_ne_nil_of_left_ne_nil (htake 0) _) _

/-- The text of a number is made of digits, signs, points and the letter of an exponent. -/
theorem all_isPlain_text (n : Number) : n.text.all isPlain = true := by
  cases n with
  | integer value =>
      have hdigits : (Nat.toDigits 10 value.natAbs).all isPlain = true :=
        List.all_eq_true.mpr fun c hc => isPlain_of_isDigit (isDigit_of_mem_toDigits hc)
      unfold Number.text
      dsimp only
      split
      · rw [List.all_cons, hdigits]
        rfl
      · exact hdigits
  | double x =>
      have hsign : (if x.negative then ['-'] else []).all isPlain = true := by
        split <;> decide
      have hmagnitude := all_magnitude (f := .document) (fun _ => isPlain_of_isDigit) (by decide)
        (by decide) (by decide) (by decide) x.shortest
      unfold Number.text DecimalFormat.text
      dsimp only
      split
      · rw [List.all_append, hsign]
        decide
      · rw [List.all_append, hsign, hmagnitude]
        rfl

theorem text_ne_nil (n : Number) : n.text ≠ [] := by
  cases n with
  | integer value =>
      unfold Number.text
      dsimp only
      split
      · exact List.cons_ne_nil _ _
      · exact Nat.toDigits_ne_nil
  | double x =>
      unfold Number.text DecimalFormat.text
      dsimp only
      split
      · exact List.append_ne_nil_of_right_ne_nil _ (List.cons_ne_nil _ _)
      · exact List.append_ne_nil_of_right_ne_nil _ (magnitude_ne_nil _ _)

/-! ## Layouts -/

section

variable (layout : Layout)

theorem stretch_lineBreak {before behind m : Nat} {next : UInt8} {rest core : List UInt8}
    (h : Stretch before (next :: rest) core behind) (hnext : next ≠ ' '.toUInt8)
    (hm : before = m + if next = '\x7d'.toUInt8 then 1 else 0) :
    Stretch before (utf8 (layout.lineBreak m) ++ next :: rest) core behind := by
  cases layout with
  | compact => exact h
  | pretty =>
      have hline := h.line hnext hm
      rw [← utf8_spaces] at hline
      exact hline

theorem stretch_colon (depth : Nat) :
    Stretch depth (utf8 layout.colon) (utf8 Layout.compact.colon) depth := by
  have hcolon : Stretch depth (utf8 [':']) (utf8 [':']) depth := stretch_char (by decide) depth
  cases layout with
  | compact => exact hcolon
  | pretty =>
      have hnil : Stretch depth (utf8 []) (utf8 []) depth := stretch_of_plain [] rfl depth
      exact hcolon.append hnil.space

/-- A name on its line, up to its value. -/
theorem stretch_name (depth : Nat) (name : String) :
    Stretch depth (utf8 (layout.lineBreak depth ++ Text.json name ++ layout.colon))
      (utf8 (Layout.compact.lineBreak depth ++ Text.json name ++ Layout.compact.colon)) depth := by
  have hname : Stretch depth (utf8 (layout.lineBreak depth) ++ utf8 (Text.json name))
      (utf8 (Text.json name)) depth :=
    stretch_lineBreak layout (stretch_json name depth) (by decide)
      (by rw [if_neg (by decide), Nat.add_zero])
  have hmember := hname.append (stretch_colon layout depth)
  rwa [← utf8_append, ← utf8_append, ← utf8_append] at hmember

/-- Something is written of every document. -/
theorem write_ne_nil (depth : Nat) : ∀ doc : Document, layout.write depth doc ≠ []
  | .null | .bool true | .bool false | .string _ => List.cons_ne_nil _ _
  | .array [] | .array (_ :: _) | .object [] | .object (_ :: _) => List.cons_ne_nil _ _
  | .number n => text_ne_nil n

mutual

/-- **What is written of a document is a stretch**, which without its blanks is what the compact
layout writes. -/
theorem stretch_write : ∀ (depth : Nat) (doc : Document),
    Stretch depth (utf8 (layout.write depth doc)) (utf8 (Layout.compact.write depth doc)) depth
  | depth, .null => stretch_of_plain ['n', 'u', 'l', 'l'] (by decide) depth
  | depth, .bool true => stretch_of_plain ['t', 'r', 'u', 'e'] (by decide) depth
  | depth, .bool false => stretch_of_plain ['f', 'a', 'l', 's', 'e'] (by decide) depth
  | depth, .number n => stretch_of_plain n.text (all_isPlain_text n) depth
  | depth, .string text => stretch_json text depth
  | depth, .array [] => stretch_of_plain ['[', ']'] (by decide) depth
  | depth, .array (item :: rest) => by
      have hitem := ((stretch_char (c := '[') (by decide) depth).append
        (stretch_write depth item)).append (stretch_items depth rest)
      rwa [← utf8_append, ← utf8_append, ← utf8_append, ← utf8_append] at hitem
  | depth, .object [] => (stretch_open depth).append (stretch_close depth)
  | depth, .object ((name, value) :: rest) => by
      have hmember := (((stretch_open depth).append (stretch_name layout (depth + 1) name)).append
        (stretch_write (depth + 1) value)).append (stretch_members depth rest)
      simp only [← utf8_append] at hmember
      simpa only [Layout.write, List.append_assoc, List.cons_append, List.nil_append] using hmember

/-- In the rest of an array as many objects are open as at the array. -/
theorem stretch_items : ∀ (depth : Nat) (items : List Document),
    Stretch depth (utf8 (layout.writeItems depth items))
      (utf8 (Layout.compact.writeItems depth items)) depth
  | depth, [] => stretch_of_plain [']'] (by decide) depth
  | depth, item :: rest => by
      have hitem := ((stretch_char (c := ',') (by decide) depth).append
        (stretch_write depth item)).append (stretch_items depth rest)
      rwa [← utf8_append, ← utf8_append, ← utf8_append, ← utf8_append] at hitem

/-- In the rest of an object the object is open until its end. -/
theorem stretch_members : ∀ (depth : Nat) (members : List (String × Document)),
    Stretch (depth + 1) (utf8 (layout.writeMembers depth members))
      (utf8 (Layout.compact.writeMembers depth members)) depth
  | depth, [] => by
      have hclose : Stretch (depth + 1) (utf8 (layout.lineBreak depth) ++ utf8 ['\x7d'])
          (utf8 ['\x7d']) depth :=
        stretch_lineBreak layout (stretch_close depth) (by decide) rfl
      rwa [← utf8_append] at hclose
  | depth, (name, value) :: rest => by
      have hmember := (((stretch_char (c := ',') (by decide) (depth + 1)).append
        (stretch_name layout (depth + 1) name)).append
        (stretch_write (depth + 1) value)).append (stretch_members depth rest)
      simp only [← utf8_append] at hmember
      simpa only [Layout.writeMembers, List.append_assoc, List.cons_append, List.nil_append]
        using hmember

end

end

end Scan

/-! ## The two layouts -/

open Scan

namespace Document

/-- The bytes of a canonical text. -/
def canonicalBytes (layout : Layout) (doc : Document) : List UInt8 :=
  (doc.canonical layout).toUTF8.data.toList

theorem toUTF8_textIn (layout : Layout) (doc : Document) :
    (doc.textIn layout).toUTF8.data.toList = utf8 (layout.write 0 doc) ++ ['\n'.toUInt8] := by
  rw [textIn, data_toUTF8, utf8_append]
  rfl

theorem canonicalBytes_eq (layout : Layout) (doc : Document) :
    doc.canonicalBytes layout = utf8 (layout.write 0 doc.sorted) ++ ['\n'.toUInt8] :=
  toUTF8_textIn layout doc.sorted

theorem split_canonicalBytes {layout : Layout} {doc : Document} {front back : List UInt8}
    {b : UInt8} (h : doc.canonicalBytes layout = front ++ b :: back) :
    (b = '\n'.toUInt8 ∧ back = [])
      ∨ ∃ back', back = back' ++ ['\n'.toUInt8]
        ∧ utf8 (layout.write 0 doc.sorted) = front ++ b :: back' := by
  rw [canonicalBytes_eq] at h
  rcases List.eq_nil_or_concat' back with rfl | ⟨back', last, rfl⟩
  · have hlast := List.append_inj_right' h rfl
    exact .inl ⟨(List.singleton_inj.mp hlast).symm, rfl⟩
  · rw [← List.cons_append, ← List.append_assoc] at h
    have hlast := List.append_inj_right' h rfl
    exact .inr ⟨back', by rw [hlast], List.append_inj_left' h rfl⟩

/-- The text of a document in a layout ends in one line feed. -/
theorem ends_textIn (layout : Layout) (doc : Document) :
    ∃ front b, (doc.textIn layout).toUTF8.data.toList = front ++ [b, '\n'.toUInt8]
      ∧ b ≠ '\n'.toUInt8 := by
  have hne := utf8_ne_nil (write_ne_nil layout 0 doc)
  obtain ⟨front, b, hsplit, hb⟩ := (stretch_write layout 0 doc).exists_last hne
  refine ⟨front, b, ?_, hb⟩
  rw [toUTF8_textIn, hsplit, List.append_assoc]
  rfl

/--
**The two layouts differ in white space alone, and a line is indented by the objects around it.**
Without the white space outside of strings the pretty text is the compact text up to the final line
feed, and that line feed is all the white space the compact text has outside of strings. Each text
ends in one line feed and not in two. Any other line feed outside of strings in the pretty text has
two spaces behind it for each object that is open at the next byte, not counting one that this byte
closes; an array counts for nothing.
-/
theorem blanks_of_layouts (doc : Document) :
    withoutBlanks (doc.canonicalBytes .pretty) ++ ['\n'.toUInt8] = doc.canonicalBytes .compact
      ∧ (∀ front b back, doc.canonicalBytes .compact = front ++ b :: back →
          Place.outside.after front = .outside → isBlank b = true →
          b = '\n'.toUInt8 ∧ back = [])
      ∧ (∀ layout, ∃ front b,
          doc.canonicalBytes layout = front ++ [b, '\n'.toUInt8] ∧ b ≠ '\n'.toUInt8)
      ∧ ∀ front back, doc.canonicalBytes .pretty = front ++ '\n'.toUInt8 :: back →
          Place.outside.after front = .outside → back ≠ [] → Indented 0 front back := by
  have hpretty := stretch_write .pretty 0 doc.sorted
  have hcompact := stretch_write .compact 0 doc.sorted
  refine ⟨?_, fun front b back heq hfront hblank => ?_,
    fun layout => ends_textIn layout doc.sorted, fun front back heq hfront hback => ?_⟩
  · rw [canonicalBytes_eq, canonicalBytes_eq, withoutBlanks_append hpretty.ends, hpretty.core]
    rw [show withoutBlanks ['\n'.toUInt8] = [] by decide, List.append_nil]
  · obtain hlast | ⟨back', rfl, hsplit⟩ := split_canonicalBytes heq
    · exact hlast
    · have hcore := hcompact.core
      rw [hsplit] at hcore
      rw [isBlank_of_withoutBlanks hcore hfront] at hblank
      exact absurd hblank (by decide)
  · obtain ⟨_, hnil⟩ | ⟨back', rfl, hsplit⟩ := split_canonicalBytes heq
    · exact absurd hnil hback
    · exact (hpretty.breaks front back' hsplit hfront).append ['\n'.toUInt8]

/-- A line break inside two objects and an array; the one in the name is escaped. -/
theorem blanks_of_layouts_nested :
    let doc : Document := .object [("a", .array [.object [("\n", .null)]])]
    let front := utf8 ['\x7b', '\n', ' ', ' ', '"', 'a', '"', ':', ' ', '[', '\x7b']
    let back := utf8 [' ', ' ', ' ', ' ', '"', '\\', 'n', '"', ':', ' ', 'n', 'u', 'l', 'l',
      '\n', ' ', ' ', '\x7d', ']', '\n', '\x7d', '\n']
    doc.canonicalBytes .pretty = front ++ '\n'.toUInt8 :: back
      ∧ Place.outside.after front = .outside ∧ back ≠ [] ∧ Indented 0 front back := by
  intro doc front back
  have hbytes : doc.canonicalBytes .pretty = front ++ '\n'.toUInt8 :: back := by
    rw [canonicalBytes_eq]
    decide
  have hfront : Place.outside.after front = .outside := by decide
  have hback : back ≠ [] := by decide
  exact ⟨hbytes, hfront, hback, (blanks_of_layouts doc).2.2.2 front back hbytes hfront hback⟩

end Document

end ChainGenesis
