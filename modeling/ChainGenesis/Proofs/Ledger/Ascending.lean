import ChainGenesis.Proofs.Ledger.Conserved
import ChainGenesis.Proofs.Load

/-!
# Accounts in the order of their numbers

The accounts of a genesis are written in ascending order of their texts. These are addresses in
lowercase, so the order is the one of the numbers that the addresses write, and everybody who
sorts accounts as numbers comes to the same file.
-/

namespace ChainGenesis

open Grammar

namespace Ledger

/-- Every account that is funded has an address in lowercase for a name. -/
theorem exists_of_mem_accounts {ledger : Ledger} {alloc : Alloc} (h : ledger.alloc = .ok alloc)
    {account : String × Document} (hmem : account ∈ alloc.accounts) :
    ∃ text, Address.Spelled text ∧ account.1 = Text.lowercase text := by
  obtain ⟨hall, rfl⟩ := alloc_eq_ok_iff.mp h
  obtain ⟨entry, hentry, rfl⟩ := List.mem_map.mp (Document.mem_of_mem_ofList hmem)
  exact ⟨entry.2.address, Address.isValid_iff.mp (hall entry hentry).address, rfl⟩

/-- **The accounts of a map ascend in their numbers.** -/
theorem ascending_accounts {ledger : Ledger} {alloc : Alloc} (h : ledger.alloc = .ok alloc) :
    (alloc.accounts.map Prod.fst).Pairwise fun a b => Address.number a < Address.number b := by
  have hordered : alloc.accounts.Ordered := by
    obtain ⟨_, rfl⟩ := alloc_eq_ok_iff.mp h
    exact Named.ordered_ofList _
  rw [List.pairwise_map]
  refine List.Pairwise.imp_of_mem (fun {a b} ha hb hlt => ?_) hordered
  obtain ⟨text, htext, hname⟩ := exists_of_mem_accounts h ha
  obtain ⟨other, hother, hname'⟩ := exists_of_mem_accounts h hb
  rw [hname, hname'] at hlt ⊢
  rw [htext.number_lowercase, hother.number_lowercase]
  exact (htext.lowercase_lt_iff hother).mp hlt

/-- What the bytes of a map write: the accounts, in their order. -/
theorem spells_accounts {ledger : Ledger} {alloc : Alloc} (h : ledger.alloc = .ok alloc) :
    Spells (Symbol.ofBytes alloc.text.toUTF8) (.object (alloc.accounts.map fun account =>
      (.ofText account.1, account.2.written)) none) := by
  have haccounts := congrArg Alloc.accounts (alloc_eq_ok_iff.mp h).2
  have hspells := spells_canonical_bytes .pretty (Alloc.exact haccounts) (Alloc.ordered haccounts)
  rwa [Alloc.document, Document.written, Document.writtenMembers_eq] at hspells

end Ledger

namespace Address

/--
**Parsed addresses are numbers of 160 bits.** A text is parsed if and only if it is `0x` and forty
hexadecimal digits of any case. What was parsed is the zero address if and only if the digits write
zero, and it is its own text that is parsed as it is. Two texts are parsed as one address if and
only if they write one number, and otherwise the addresses are in the order of the numbers. So in
the bytes of a map of balances the accounts stand in strictly ascending order of number.
-/
theorem parsed_as_number :
    (∀ text, (∃ address, parse text = .ok address) ↔ Spelled text)
    ∧ (∀ text address, parse text = .ok address →
      number text < 2 ^ 160 ∧ (address.isZero = true ↔ number text = 0)
        ∧ parse address.text = .ok address)
    ∧ (∀ text other address address', parse text = .ok address → parse other = .ok address' →
      (address = address' ↔ number text = number other)
        ∧ (address.text < address'.text ↔ number text < number other))
    ∧ ∀ (ledger : Ledger) alloc, ledger.alloc = .ok alloc →
      ∃ members, ∃ names : List String,
        Spells (Symbol.ofBytes alloc.text.toUTF8) (.object members none)
        ∧ (members.map fun member => member.1.text) = names.map .ok
        ∧ (∀ name ∈ names, Spelled name)
        ∧ names.Pairwise fun a b => number a < number b := by
  refine ⟨fun text => ?_, fun text address h => ?_, fun text other address address' h h' => ?_,
    fun ledger alloc h => ?_⟩
  · simp only [parse_eq_ok_iff, isValid_iff, exists_and_left, exists_eq, and_true]
  · obtain ⟨hvalid, rfl⟩ := parse_eq_ok_iff.mp h
    have hspelled := isValid_iff.mp hvalid
    refine ⟨hspelled.number_lt, isZero_iff hspelled, parse_eq_ok_iff.mpr ⟨?_, ?_⟩⟩
    · exact isValid_iff.mpr hspelled.lowercase
    · exact congrArg mk hspelled.lowercase_lowercase.symm
  · obtain ⟨hvalid, rfl⟩ := parse_eq_ok_iff.mp h
    obtain ⟨hvalid', rfl⟩ := parse_eq_ok_iff.mp h'
    have hspelled := isValid_iff.mp hvalid
    have hspelled' := isValid_iff.mp hvalid'
    rw [mk.injEq]
    exact ⟨hspelled.lowercase_eq_iff hspelled', hspelled.lowercase_lt_iff hspelled'⟩
  · refine ⟨_, _, Ledger.spells_accounts h, ?_, fun name hmem => ?_, Ledger.ascending_accounts h⟩
    · rw [List.map_map, List.map_map]
      exact List.map_congr_left fun account _ => StringLiteral.text_ofText account.1
    · obtain ⟨account, haccount, rfl⟩ := List.mem_map.mp hmem
      obtain ⟨text, htext, hname⟩ := Ledger.exists_of_mem_accounts h haccount
      exact hname ▸ htext.lowercase

/-- An uppercase and a lowercase address, and three accounts of which the first is in uppercase in
the ledger. -/
theorem parsed_as_number_mixed :
    parse "0x00000000000000000000000000000000000000AA"
        = .ok ⟨"0x00000000000000000000000000000000000000aa"⟩
      ∧ parse "0x00000000000000000000000000000000000000b0"
        = .ok ⟨"0x00000000000000000000000000000000000000b0"⟩
      ∧ "0x00000000000000000000000000000000000000aa" < "0x00000000000000000000000000000000000000b0"
      ∧ ∃ alloc members, ∃ names : List String, Ledger.mixedLedger.alloc = .ok alloc
        ∧ Spells (Symbol.ofBytes alloc.text.toUTF8) (.object members none)
        ∧ (members.map fun member => member.1.text) = names.map .ok
        ∧ names.Pairwise fun a b => number a < number b := by
  obtain ⟨_, _, hpairs, hledgers⟩ := parsed_as_number
  have hparse : parse "0x00000000000000000000000000000000000000AA"
      = .ok ⟨"0x00000000000000000000000000000000000000aa"⟩ := by rfl
  have hparse' : parse "0x00000000000000000000000000000000000000b0"
      = .ok ⟨"0x00000000000000000000000000000000000000b0"⟩ := by rfl
  have halloc := (Ledger.verify_issues_eq_nil_iff.mp Ledger.verify_mixedLedger).alloc
  obtain ⟨members, names, hspells, hnames, _, hascend⟩ := hledgers _ _ halloc
  exact ⟨hparse, hparse', (hpairs _ _ _ _ hparse hparse').2.mpr (by decide +kernel), _, members,
    names, halloc, hspells, hnames, hascend⟩

end Address

end ChainGenesis
