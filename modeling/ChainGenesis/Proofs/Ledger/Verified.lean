import ChainGenesis.Ledger.Verify
import ChainGenesis.Proofs.Address
import ChainGenesis.Proofs.Amount

/-!
# What a verified ledger is

Verification goes through the ledger with the accounts that are taken so far. It finds
nothing if and only if every entry is sound by itself and no account is given twice, be it
in an entry before or in an accepted address from earlier.
-/

namespace ChainGenesis

namespace Allocation

/-- The account of an allocation, whose address is one. -/
def account (entry : Allocation) : Address := ⟨Text.lowercase entry.address⟩

/-- The amount of an allocation, which is a string of digits. -/
def wei (entry : Allocation) : Wei := ⟨Nat.ofDigitChars 10 entry.amount.toList 0⟩

/-- An allocation that gives an amount to an account that may have one. -/
structure Sound (opts : VerifyOptions) (entry : Allocation) : Prop where
  address : Address.isValid entry.address = true
  notZero : opts.allowZeroAddress = true ∨ entry.account.isZero = false
  amount : Wei.isDigitString entry.amount = true

instance (opts : VerifyOptions) (entry : Allocation) : Decidable (entry.Sound opts) :=
  decidable_of_iff (Address.isValid entry.address = true
      ∧ (opts.allowZeroAddress = true ∨ entry.account.isZero = false)
      ∧ Wei.isDigitString entry.amount = true)
    ⟨fun ⟨address, notZero, amount⟩ => ⟨address, notZero, amount⟩,
      fun h => ⟨h.address, h.notZero, h.amount⟩⟩

end Allocation

namespace Ledger

theorem ne_of_isValid {text : String} (h : Address.isValid text = true) : text ≠ "" := by
  rintro rfl
  exact absurd h (by decide)

/-- **The rules for an address by itself,** the first of them that is broken. -/
theorem account_eq (opts : VerifyOptions) (text : String) :
    account opts text
      = if text = "" then .error .required
        else if Address.isValid text = false then .error .addressShape
        else if opts.allowZeroAddress = false ∧ Address.isZero ⟨Text.lowercase text⟩ = true
          then .error .addressZero
        else .ok ⟨Text.lowercase text⟩ := by
  unfold account Address.parse
  by_cases hempty : text = ""
  · simp [hempty]
  by_cases hvalid : Address.isValid text = true
  · cases hzero : Address.isZero ⟨Text.lowercase text⟩ <;> simp [hempty, hvalid, hzero]
  · simp [hempty, hvalid]

theorem account_eq_ok_iff {opts : VerifyOptions} {text : String} {address : Address} :
    account opts text = .ok address ↔ Address.isValid text = true
      ∧ (opts.allowZeroAddress = true ∨ Address.isZero ⟨Text.lowercase text⟩ = false)
      ∧ address = ⟨Text.lowercase text⟩ := by
  rw [account_eq]
  by_cases hvalid : Address.isValid text = true
  · rw [if_neg (ne_of_isValid hvalid), if_neg (by rw [hvalid]; simp)]
    cases opts.allowZeroAddress <;> cases Address.isZero ⟨Text.lowercase text⟩ <;>
      simp [hvalid, eq_comm]
  · refine iff_of_false ?_ fun h => hvalid h.1
    by_cases hempty : text = "" <;> simp [hempty, hvalid]

theorem checkAmount_eq_nil_iff {path : DocPath} {amount : String} :
    checkAmount path amount = [] ↔ Wei.isDigitString amount = true := by
  unfold checkAmount
  constructor
  · intro h
    split at h
    · rename_i found heq
      exact (Wei.parse_eq_ok_iff.mp heq).1
    · exact absurd h (by simp)
    · exact absurd h (by simp)
  · intro h
    rw [Wei.parse_eq_ok_iff.mpr ⟨h, rfl⟩]

/-- An address is accepted if it is an account that is not taken, and then it is taken. -/
theorem checkAddress_eq_nil_iff {opts : VerifyOptions} {taken after : Taken} {path : DocPath}
    {text : String} :
    checkAddress opts taken path text = ([], after) ↔ Address.isValid text = true
      ∧ (opts.allowZeroAddress = true ∨ Address.isZero ⟨Text.lowercase text⟩ = false)
      ∧ taken.lookup ⟨Text.lowercase text⟩ = none
      ∧ after = (⟨Text.lowercase text⟩, path) :: taken := by
  unfold checkAddress
  constructor
  · intro h
    split at h
    · exact absurd h (by simp)
    · rename_i address heq
      obtain ⟨hvalid, hzero, rfl⟩ := account_eq_ok_iff.mp heq
      split at h
      · exact absurd h (by simp)
      · rename_i hfree
        injection h with _ h
        exact ⟨hvalid, hzero, hfree, h.symm⟩
  · rintro ⟨hvalid, hzero, hfree, rfl⟩
    rw [account_eq_ok_iff.mpr ⟨hvalid, hzero, rfl⟩]
    dsimp only
    rw [hfree]

/-- Entries give no account twice, and none that is taken. -/
def Distinct (taken : Taken) (entries : List (DocPath × Allocation)) : Prop :=
  (entries.map fun entry => entry.2.account).Nodup
    ∧ ∀ entry ∈ entries, taken.lookup entry.2.account = none

theorem distinct_cons_iff {taken : Taken} {entry : DocPath × Allocation}
    {rest : List (DocPath × Allocation)} (path : DocPath) :
    Distinct taken (entry :: rest) ↔ taken.lookup entry.2.account = none
      ∧ Distinct ((entry.2.account, path) :: taken) rest := by
  unfold Distinct
  rw [List.map_cons, List.nodup_cons, List.forall_mem_cons]
  constructor
  · rintro ⟨⟨hnot, hnodup⟩, hfree, hrest⟩
    refine ⟨hfree, hnodup, fun other hmem => ?_⟩
    have hne : (other.2.account == entry.2.account) = false := by
      rw [beq_eq_false_iff_ne]
      intro heq
      exact hnot (List.mem_map.mpr ⟨other, hmem, heq⟩)
    rw [List.lookup_cons, hne]
    exact hrest other hmem
  · rintro ⟨hfree, hnodup, hrest⟩
    -- an account that is not found behind the new entry is another one, and was free before
    have hboth : ∀ other ∈ rest, other.2.account ≠ entry.2.account
        ∧ taken.lookup other.2.account = none := by
      intro other hmem
      have hother := hrest other hmem
      rw [List.lookup_cons] at hother
      split at hother
      · exact absurd hother (by simp)
      · rename_i hne
        exact ⟨beq_eq_false_iff_ne.mp hne, hother⟩
    refine ⟨⟨fun hmem => ?_, hnodup⟩, hfree, fun other hmem => (hboth other hmem).2⟩
    obtain ⟨other, hmem, heq⟩ := List.mem_map.mp hmem
    exact (hboth other hmem).1 heq

/-- **Entries are found in order exactly if each is sound and no account is given twice.** -/
theorem checkEntries_eq_nil_iff {opts : VerifyOptions} {taken : Taken}
    {entries : List (DocPath × Allocation)} :
    (checkEntries opts taken entries).1 = []
      ↔ (∀ entry ∈ entries, entry.2.Sound opts) ∧ Distinct taken entries := by
  induction entries generalizing taken with
  | nil =>
      exact ⟨fun _ => ⟨fun _ hmem => absurd hmem (by simp), List.nodup_nil,
        fun _ hmem => absurd hmem (by simp)⟩, fun _ => rfl⟩
  | cons entry rest ih =>
      -- the accounts that are taken after the first entry carry the induction
      obtain ⟨path, entry⟩ := entry
      rw [List.forall_mem_cons, checkEntries]
      generalize hc : checkAddress opts taken (path.field "address") entry.address = found
      obtain ⟨issues, after⟩ := found
      dsimp only
      rw [List.append_eq_nil_iff, List.append_eq_nil_iff, checkAmount_eq_nil_iff, ih]
      constructor
      · rintro ⟨⟨rfl, hamount⟩, hsound, hdistinct⟩
        obtain ⟨hvalid, hzero, hfree, rfl⟩ := checkAddress_eq_nil_iff.mp hc
        exact ⟨⟨⟨hvalid, hzero, hamount⟩, hsound⟩, (distinct_cons_iff _).mpr ⟨hfree, hdistinct⟩⟩
      · rintro ⟨⟨hsound, hrest⟩, hdistinct⟩
        obtain ⟨hfree, hdistinct⟩ := (distinct_cons_iff (path.field "address")).mp hdistinct
        have hok : checkAddress opts taken (path.field "address") entry.address
            = ([], (entry.account, path.field "address") :: taken) :=
          checkAddress_eq_nil_iff.mpr ⟨hsound.address, hsound.notZero, hfree, rfl⟩
        injection hc.symm.trans hok with h1 h2
        subst h1 h2
        exact ⟨⟨rfl, hsound.amount⟩, hrest, hdistinct⟩

/-! ## The whole ledger -/

/-- What verification asks of a ledger. -/
structure Sound (opts : VerifyOptions) (ledger : Ledger) : Prop where
  unit : ledger.header.unit = requiredUnit
  decimals : ledger.header.decimals = Token.requiredDecimals
  token : ledger.header.token = opts.expectedToken
  buckets : ledger.buckets ≠ []
  entries : ∀ entry ∈ ledger.entries, entry.2.Sound opts
  distinct : (ledger.entries.map fun entry => entry.2.account).Nodup

theorem checkValue_eq_nil_iff {path : DocPath} {ok : Bool} {expected : String} :
    checkValue path ok expected = [] ↔ ok = true := by
  cases ok <;> simp [checkValue]

/-- **Verification finds nothing in sound ledgers, and in no others.** -/
theorem verify_issues_eq_nil_iff {opts : VerifyOptions} {ledger : Ledger} :
    (ledger.verify opts).issues = [] ↔ ledger.Sound opts := by
  show checkHeader opts ledger ++ (checkEntries opts [] ledger.entries).1 = [] ↔ _
  rw [List.append_eq_nil_iff, checkEntries_eq_nil_iff, checkHeader, List.append_eq_nil_iff,
    List.append_eq_nil_iff, List.append_eq_nil_iff, checkValue_eq_nil_iff, checkValue_eq_nil_iff,
    checkValue_eq_nil_iff, decide_eq_true_eq, decide_eq_true_eq, decide_eq_true_eq]
  constructor
  · rintro ⟨⟨⟨⟨hunit, hdecimals⟩, htoken⟩, hbuckets⟩, hentries, hdistinct, _⟩
    refine ⟨hunit, hdecimals, htoken, fun hempty => ?_, hentries, hdistinct⟩
    rw [hempty] at hbuckets
    exact absurd hbuckets (by simp)
  · intro h
    refine ⟨⟨⟨⟨h.unit, h.decimals⟩, h.token⟩, ?_⟩, h.entries, h.distinct, fun _ _ => rfl⟩
    rw [if_neg (by rw [List.isEmpty_iff]; exact h.buckets)]

end Ledger

end ChainGenesis
