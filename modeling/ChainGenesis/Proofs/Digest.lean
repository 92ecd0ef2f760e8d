import ChainGenesis.Digest
import ChainGenesis.Proofs.Json.Records
import ChainGenesis.Proofs.Load

/-!
# Digests as names

A digest is told by its text alone: the label and the forty-three digits are all there is to it, and
no two hashes have the same digits. So digests can be passed on as texts and be compared as texts.
-/

namespace ChainGenesis

/-! ## Base64 -/

namespace Base64Url

/-- Whatever is encoded, it is written in digits of the alphabet. -/
theorem isDigit_of_mem_encode {bytes : List UInt8} {c : Char} (h : c ∈ encode bytes) :
    isDigit c = true := by
  fun_induction encode bytes with
  | case1 => exact absurd h List.not_mem_nil
  | case2 a n =>
      have ha := a.toNat_lt
      simp only [List.mem_cons, List.not_mem_nil, or_false] at h
      rcases h with rfl | rfl <;> exact isDigit_digit (by omega)
  | case3 a b n =>
      have ha := a.toNat_lt
      have hb := b.toNat_lt
      simp only [List.mem_cons, List.not_mem_nil, or_false] at h
      rcases h with rfl | rfl | rfl <;> exact isDigit_digit (by omega)
  | case4 a b c rest n ih =>
      have ha := a.toNat_lt
      have hb := b.toNat_lt
      have hc := c.toNat_lt
      simp only [List.mem_cons] at h
      rcases h with rfl | rfl | rfl | rfl | h
      · exact isDigit_digit (by omega)
      · exact isDigit_digit (by omega)
      · exact isDigit_digit (by omega)
      · exact isDigit_digit (by omega)
      · exact ih h

theorem digit_inj {m n : Nat} (hm : m < 64) (hn : n < 64) (h : digit m = digit n) : m = n := by
  have hall : ∀ m < 64, ∀ n < 64, digit m = digit n → m = n := by decide +kernel
  exact hall m hm n hn h

/-- **Byte strings of which the digits are the same are the same.** -/
theorem eq_of_encode_eq {bytes others : List UInt8} (h : encode bytes = encode others) :
    bytes = others := by
  have hlength : bytes.length = others.length := by
    have hdigits := congrArg List.length h
    rw [length_encode, length_encode] at hdigits
    omega
  induction bytes using encode.induct generalizing others with
  | case1 => exact (List.length_eq_zero_iff.mp hlength.symm).symm
  | case2 a =>
      obtain ⟨a', rfl⟩ := List.length_eq_one_iff.mp hlength.symm
      have ha := a.toNat_lt
      have ha' := a'.toNat_lt
      simp only [encode, List.cons.injEq, and_true] at h
      have h1 := digit_inj (by omega) (by omega) h.1
      have h2 := digit_inj (by omega) (by omega) h.2
      rw [UInt8.toNat_inj.mp (by omega : a.toNat = a'.toNat)]
  | case3 a b =>
      obtain ⟨a', b', rfl⟩ := List.length_eq_two.mp hlength.symm
      have ha := a.toNat_lt
      have ha' := a'.toNat_lt
      have hb := b.toNat_lt
      have hb' := b'.toNat_lt
      simp only [encode, List.cons.injEq, and_true] at h
      have h1 := digit_inj (by omega) (by omega) h.1
      have h2 := digit_inj (by omega) (by omega) h.2.1
      have h3 := digit_inj (by omega) (by omega) h.2.2
      rw [UInt8.toNat_inj.mp (by omega : a.toNat = a'.toNat),
        UInt8.toNat_inj.mp (by omega : b.toNat = b'.toNat)]
  | case4 a b c rest ih =>
      obtain ⟨a', others, rfl⟩ := List.exists_cons_of_length_eq_add_one hlength.symm
      obtain ⟨b', others, rfl⟩ := List.exists_cons_of_length_eq_add_one (Nat.succ.inj hlength.symm)
      obtain ⟨c', others, rfl⟩ :=
        List.exists_cons_of_length_eq_add_one (Nat.succ.inj (Nat.succ.inj hlength.symm))
      have ha := a.toNat_lt
      have ha' := a'.toNat_lt
      have hb := b.toNat_lt
      have hb' := b'.toNat_lt
      have hc := c.toNat_lt
      have hc' := c'.toNat_lt
      simp only [encode, List.cons.injEq] at h
      have h1 := digit_inj (by omega) (by omega) h.1
      have h2 := digit_inj (by omega) (by omega) h.2.1
      have h3 := digit_inj (by omega) (by omega) h.2.2.1
      have h4 := digit_inj (by omega) (by omega) h.2.2.2.1
      rw [UInt8.toNat_inj.mp (by omega : a.toNat = a'.toNat),
        UInt8.toNat_inj.mp (by omega : b.toNat = b'.toNat),
        UInt8.toNat_inj.mp (by omega : c.toNat = c'.toNat),
        ih h.2.2.2.2 (by simpa using hlength)]

end Base64Url

/-! ## The shown form -/

namespace Digest

theorem afterLabel?_eq_some_iff {label text rest : List Char} :
    afterLabel? label text = some rest ↔ text = label ++ rest := by
  induction label generalizing text with
  | nil => rw [afterLabel?, Option.some_inj, List.nil_append]
  | cons c label ih =>
      cases text with
      | nil => simp [afterLabel?]
      | cons d text =>
          rw [afterLabel?, List.cons_append, List.cons.injEq]
          by_cases hc : c = d
          · rw [if_pos hc, ih]
            simp [hc]
          · rw [if_neg hc]
            simp [Ne.symm hc]

theorem afterLabel?_display_iff {text : String} {digest : Digest} :
    afterLabel? (algorithm ++ ":").toList text.toList = some digest.code.toList
      ↔ digest.display = text := by
  rw [afterLabel?_eq_some_iff, ← String.toList_append, String.toList_inj, eq_comm]
  rfl

/-- A text is parsed as the digest that it shows, if the code has the shape of one. -/
theorem parse_eq_ok_iff {text : String} {digest : Digest} :
    parse text = .ok digest ↔ digest.display = text ∧ isCode digest.code = true := by
  constructor
  · intro h
    unfold parse at h
    split at h
    · rename_i code hcode
      split at h
      · rename_i hshape
        injection h with h
        subst h
        rw [← afterLabel?_display_iff, String.toList_ofList]
        exact ⟨hcode, hshape⟩
      · exact absurd h (by simp)
    · exact absurd h (by simp)
  · rintro ⟨htext, hshape⟩
    unfold parse
    rw [afterLabel?_display_iff.mpr htext]
    dsimp only
    rw [String.ofList_toList, if_pos hshape]

/-- The code of a hash has forty-three digits. -/
theorem isCode_ofBytes (bytes : List UInt8) : isCode (ofBytes bytes).code = true := by
  rw [isCode, ofBytes, String.toList_ofList, Base64Url.length_encode, Sha256.length_hash,
    Bool.and_eq_true, List.all_eq_true]
  exact ⟨rfl, fun c hc => Base64Url.isDigit_of_mem_encode hc⟩

theorem ofBytes_eq_iff {bytes others : List UInt8} :
    ofBytes bytes = ofBytes others ↔ Sha256.hash bytes = Sha256.hash others := by
  constructor
  · intro h
    injection h with h
    exact Base64Url.eq_of_encode_eq (String.ofList_injective h)
  · intro h
    rw [ofBytes, h]
    rfl

theorem display_inj {digest other : Digest} : digest.display = other.display ↔ digest = other := by
  rw [← afterLabel?_display_iff, afterLabel?_display_iff.mpr rfl, Option.some_inj,
    String.toList_inj, Digest.mk.injEq, eq_comm]

/-! ## The JSON form -/

/-- The tree of a digest is read as the digest, whatever its code. -/
theorem ofWritten_written (digest : Digest) :
    ofWritten digest.document.written = .ok digest := by
  have hmembers : digest.document.written = .object (Written.membersOf fields
      [.string (.ofText algorithm), .string (.ofText digest.code)]) none := rfl
  have halgorithm : readAlgorithm (.string (.ofText algorithm)) = .ok () := by
    rw [readAlgorithm, StringLiteral.text_ofText]
    rfl
  have hcode : Written.readText (.string (.ofText digest.code)) = .ok digest.code :=
    StringLiteral.text_ofText digest.code
  rw [hmembers, ofWritten, Written.readRecord_membersOf (by decide) rfl, Written.readRecord, fields,
    Written.readItemsInto_field halgorithm, Written.readItemsInto_field hcode]
  rfl

/-- What is written of a digest is read back. -/
theorem decode_json (digest : Digest) :
    Written.decode ofWritten (Symbol.ofString digest.json) = .ok digest := by
  have hexact : digest.document.Exact := ⟨trivial, trivial, trivial⟩
  exact (Written.decode_eq_ok_iff (Grammar.spells_write .compact hexact)).mpr
    (ofWritten_written digest)

/-! ## What a digest names -/

/--
**A digest is a faithful name of bytes.** The fingerprint of a byte string is read back from the
text that it is shown as and from its JSON, and it belongs to just the byte strings with that
hash. And whatever text is parsed as a digest, the digest is shown as that very text and belongs
to just the byte strings of which the fingerprint is shown so.
-/
theorem names_bytes :
    (∀ bytes, parse (ofBytes bytes).display = .ok (ofBytes bytes)
        ∧ Written.decode ofWritten (Symbol.ofString (ofBytes bytes).json) = .ok (ofBytes bytes)
        ∧ ∀ other, (ofBytes bytes).isOf other = true ↔ Sha256.hash other = Sha256.hash bytes)
      ∧ ∀ text digest, parse text = .ok digest → digest.display = text
        ∧ ∀ bytes, digest.isOf bytes = true ↔ text = (ofBytes bytes).display := by
  refine ⟨fun bytes => ⟨?_, decode_json _, fun other => ?_⟩, fun text digest h => ?_⟩
  · exact parse_eq_ok_iff.mpr ⟨rfl, isCode_ofBytes bytes⟩
  · rw [isOf, decide_eq_true_eq, ofBytes_eq_iff]
  · obtain ⟨rfl, _⟩ := parse_eq_ok_iff.mp h
    refine ⟨rfl, fun bytes => ?_⟩
    rw [isOf, decide_eq_true_eq, display_inj, eq_comm]

/-- The text of the fingerprint of `abc` belongs to that byte string and not to the empty one. -/
theorem names_bytes_abc :
    let digest : Digest := ⟨"ungWv48Bz-pBQUDeXa4iI7ADYaOWF3qctBD_YfIAFa0"⟩
    parse "sha-256:ungWv48Bz-pBQUDeXa4iI7ADYaOWF3qctBD_YfIAFa0" = .ok digest
      ∧ digest.isOf [0x61, 0x62, 0x63] = true ∧ digest.isOf [] = false := by
  intro digest
  have hparse : parse "sha-256:ungWv48Bz-pBQUDeXa4iI7ADYaOWF3qctBD_YfIAFa0" = .ok digest :=
    parse_eq_ok_iff.mpr ⟨by decide, by decide⟩
  have hnames := (names_bytes.2 _ digest hparse).2
  refine ⟨hparse, (hnames _).mpr (by decide +kernel), ?_⟩
  rw [← Bool.not_eq_true, hnames]
  decide +kernel

end Digest

end ChainGenesis
