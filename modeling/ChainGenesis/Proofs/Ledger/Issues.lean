import ChainGenesis.Proofs.Ledger.Verified
import Mathlib.Data.Finset.Card
import Mathlib.Data.Finset.Dedup
import Mathlib.Data.Finset.Insert

/-!
# What verification lists

Verification goes through the ledger once and remembers the accounts that are taken. What it
lists can be said without that: every place of the ledger is judged by itself, and an address by
the entries before it as well. The list is what is wrong at each place, in the order of places,
and at no place is more than one thing wrong.

Of several entries with one account the first that may have it is accepted. Every later one is at
fault, and each of them points to the accepted one.
-/

namespace ChainGenesis

/-- An allocation whose address can be accepted where it is not taken. -/
def Allocation.Admissible (opts : VerifyOptions) (entry : Allocation) : Prop :=
  Address.isValid entry.address = true
    ∧ (opts.allowZeroAddress = true ∨ entry.account.isZero = false)

instance (opts : VerifyOptions) (entry : Allocation) : Decidable (entry.Admissible opts) :=
  inferInstanceAs (Decidable (_ ∧ _))

namespace Ledger

/-! ## Places -/

/-- A place of a ledger, and what is wrong there. -/
abbrev Place := DocPath × Option Problem

/-- The issues of the places at which something is wrong. -/
def issuesAt (places : List Place) : List Issue :=
  places.filterMap fun (path, problem) => problem.map (Issue.mk path)

/-- The places of the header, and the buckets as a whole. -/
def headerPlaces (opts : VerifyOptions) (ledger : Ledger) : List Place := [
  (headerPath "unit", if ledger.header.unit = "wei" then none else some (.mustBe "wei")),
  (headerPath "decimals", if ledger.header.decimals = 18 then none else some (.mustBe "18")),
  (headerPath "token",
    if ledger.header.token = opts.expectedToken then none else some (.mustBe opts.expectedToken)),
  (DocPath.root.field "buckets", if ledger.buckets = [] then some .emptyBuckets else none)]

/-- The path of the first address among some entries that can be accepted for an account. -/
def holder? (opts : VerifyOptions) (entries : List (DocPath × Allocation)) (account : Address) :
    Option DocPath :=
  (entries.find? fun entry => entry.2.Admissible opts ∧ entry.2.account = account).map
    fun entry => entry.1.field "address"

/-- What is wrong with the address of an entry that stands behind some others. -/
def addressProblem? (opts : VerifyOptions) (earlier : List (DocPath × Allocation))
    (entry : Allocation) : Option Problem :=
  if entry.address = "" then some .required
  else if Address.isValid entry.address = false then some .addressShape
  else if opts.allowZeroAddress = false ∧ entry.account.isZero = true then some .addressZero
  else (holder? opts earlier entry.account).map fun first => .addressTaken first entry.account

/-- What is wrong with an amount. -/
def amountProblem? (amount : String) : Option Problem :=
  if Wei.isDigitString amount = true then none
  else if Wei.isNegative amount = true then some .amountNegative
  else some .amountShape

/-- The address and the amount of an entry that stands behind some others. -/
def entryPlaces (opts : VerifyOptions) (earlier : List (DocPath × Allocation))
    (entry : DocPath × Allocation) : List Place := [
  (entry.1.field "address", addressProblem? opts earlier entry.2),
  (entry.1.field "amount", amountProblem? entry.2.amount)]

/-- Each entry with the entries before it. -/
def withEarlier (entries : List (DocPath × Allocation)) :
    List (List (DocPath × Allocation) × (DocPath × Allocation)) :=
  entries.zipIdx.map fun (entry, i) => (entries.take i, entry)

/-- The places of all entries, each judged by the entries before it. -/
def entriesPlaces (opts : VerifyOptions) (entries : List (DocPath × Allocation)) : List Place :=
  (withEarlier entries).flatMap fun (earlier, entry) => entryPlaces opts earlier entry

/-- The accounts of the entries whose address is accepted. -/
def acceptedAccounts (opts : VerifyOptions) (entries : List (DocPath × Allocation)) :
    Finset Address :=
  (((withEarlier entries).filter fun (earlier, entry) =>
    addressProblem? opts earlier entry.2 = none).map fun (_, entry) => entry.2.account).toFinset

theorem issuesAt_append (front back : List Place) :
    issuesAt (front ++ back) = issuesAt front ++ issuesAt back := List.filterMap_append

theorem withEarlier_concat (entries : List (DocPath × Allocation)) (entry : DocPath × Allocation) :
    withEarlier (entries ++ [entry]) = withEarlier entries ++ [(entries, entry)] := by
  rw [withEarlier, List.zipIdx_append, List.map_append, withEarlier]
  refine congrArg₂ (· ++ ·) (List.map_congr_left fun (other, i) hmem => ?_) ?_
  · -- the entries before another one are the same with one more at the end
    have hlt : i < entries.length := by
      have := List.snd_lt_add_of_mem_zipIdx hmem
      omega
    show ((entries ++ [entry]).take i, other) = (entries.take i, other)
    rw [List.take_append_of_le_length (Nat.le_of_lt hlt)]
  · simp

/-! ## Each rule -/

theorem checkHeader_eq (opts : VerifyOptions) (ledger : Ledger) :
    checkHeader opts ledger = issuesAt (headerPlaces opts ledger) := by
  have hrule : ∀ (path : DocPath) (p : Prop) [Decidable p] (expected : String),
      checkValue path (decide p) expected
        = issuesAt [(path, if p then none else some (.mustBe expected))] := by
    intro path p _ expected
    by_cases h : p <;> simp [checkValue, issuesAt, h]
  have hbuckets : (if ledger.buckets.isEmpty then
        [⟨DocPath.root.field "buckets", .emptyBuckets⟩] else [] : List Issue)
      = issuesAt [(DocPath.root.field "buckets",
          if ledger.buckets = [] then some .emptyBuckets else none)] := by
    cases h : ledger.buckets <;> simp [issuesAt]
  rw [checkHeader, hrule, hrule, hrule, hbuckets]
  simp only [← issuesAt_append]
  rfl

theorem checkAmount_eq (path : DocPath) (amount : String) :
    checkAmount path amount = issuesAt [(path, amountProblem? amount)] := by
  unfold checkAmount amountProblem? Wei.parse
  by_cases hdigits : Wei.isDigitString amount = true
  · simp [hdigits, Wei.isNegative_eq_false hdigits, issuesAt]
  · by_cases hnegative : Wei.isNegative amount = true <;> simp [hdigits, hnegative, issuesAt]

theorem addressProblem?_of_admissible {opts : VerifyOptions}
    {earlier : List (DocPath × Allocation)} {entry : Allocation} (h : entry.Admissible opts) :
    addressProblem? opts earlier entry
      = (holder? opts earlier entry.account).map
        fun first => .addressTaken first entry.account := by
  have hzero : ¬(opts.allowZeroAddress = false ∧ entry.account.isZero = true) := by
    rintro ⟨hallow, hzero⟩
    rcases h.2 with h | h
    · exact absurd (hallow.symm.trans h) (by simp)
    · exact absurd (hzero.symm.trans h) (by simp)
  unfold addressProblem?
  rw [if_neg (ne_of_isValid h.1), if_neg (by rw [h.1]; simp), if_neg hzero]

/-- What is wrong with an address by itself does not depend on the entries before it. -/
theorem addressProblem?_of_not_admissible {opts : VerifyOptions} {entry : Allocation}
    (h : ¬entry.Admissible opts) :
    ∃ problem ∈ [Problem.required, .addressShape, .addressZero],
      ∀ earlier, addressProblem? opts earlier entry = some problem := by
  by_cases hempty : entry.address = ""
  · exact ⟨.required, by simp, fun _ => by simp [addressProblem?, hempty]⟩
  by_cases hvalid : Address.isValid entry.address = false
  · exact ⟨.addressShape, by simp, fun _ => by simp [addressProblem?, hempty, hvalid]⟩
  · have hzero : opts.allowZeroAddress = false ∧ entry.account.isZero = true := by
      simpa [Allocation.Admissible, hvalid] using h
    exact ⟨.addressZero, by simp, fun _ => by simp [addressProblem?, hempty, hvalid, hzero]⟩

/-- An address is accepted if it may be and no entry before it has the account. -/
theorem addressProblem?_eq_none_iff {opts : VerifyOptions}
    {earlier : List (DocPath × Allocation)} {entry : Allocation} :
    addressProblem? opts earlier entry = none
      ↔ entry.Admissible opts ∧ holder? opts earlier entry.account = none := by
  by_cases h : entry.Admissible opts
  · simp [addressProblem?_of_admissible h, h]
  · obtain ⟨problem, _, hproblem⟩ := addressProblem?_of_not_admissible h
    simp [hproblem, h]

/-! ## The accounts that are taken -/

theorem holder?_concat (opts : VerifyOptions) (entries : List (DocPath × Allocation))
    (entry : DocPath × Allocation) (account : Address) :
    holder? opts (entries ++ [entry]) account
      = (holder? opts entries account).or
        (if entry.2.Admissible opts ∧ entry.2.account = account
          then some (entry.1.field "address") else none) := by
  unfold holder?
  rw [List.find?_append, Option.map_or]
  by_cases h : entry.2.Admissible opts ∧ entry.2.account = account <;> simp [List.find?, h]

/-- A new entry that is accepted holds its account, and no other holder changes. -/
theorem holder?_concat_eq (opts : VerifyOptions) (entries : List (DocPath × Allocation))
    (entry : DocPath × Allocation) (account : Address) :
    holder? opts (entries ++ [entry]) account
      = if addressProblem? opts entries entry.2 = none ∧ entry.2.account = account
        then some (entry.1.field "address") else holder? opts entries account := by
  simp only [holder?_concat, addressProblem?_eq_none_iff]
  by_cases hsame : entry.2.account = account
  · subst hsame
    by_cases hadmissible : entry.2.Admissible opts <;>
      cases hholder : holder? opts entries entry.2.account <;> simp [hadmissible]
  · simp [hsame]

theorem acceptedAccounts_concat (opts : VerifyOptions) (entries : List (DocPath × Allocation))
    (entry : DocPath × Allocation) :
    acceptedAccounts opts (entries ++ [entry])
      = if addressProblem? opts entries entry.2 = none
        then insert entry.2.account (acceptedAccounts opts entries)
        else acceptedAccounts opts entries := by
  unfold acceptedAccounts
  rw [withEarlier_concat, List.filter_append, List.map_append, List.toFinset_append]
  by_cases h : addressProblem? opts entries entry.2 = none
  · rw [if_pos h, Finset.union_comm]
    simp [h]
  · rw [if_neg h]
    simp [h]

/-- The accepted accounts are those with a holder. -/
theorem mem_acceptedAccounts_iff {opts : VerifyOptions} {entries : List (DocPath × Allocation)}
    {account : Address} :
    account ∈ acceptedAccounts opts entries ↔ holder? opts entries account ≠ none := by
  induction entries using List.reverseRecOn with
  | nil => simp [acceptedAccounts, withEarlier, holder?]
  | append_singleton entries entry ih =>
      rw [acceptedAccounts_concat, holder?_concat_eq]
      by_cases haccepted : addressProblem? opts entries entry.2 = none
      · rw [if_pos haccepted, Finset.mem_insert, ih]
        by_cases hsame : entry.2.account = account
        · simp [haccepted, hsame]
        · simp [hsame, Ne.symm hsame]
      · rw [if_neg haccepted, ih]
        simp [haccepted]

/-- What is taken after some entries: the accepted accounts, each with the first address that
can be accepted for it. -/
structure TakenBy (opts : VerifyOptions) (entries : List (DocPath × Allocation))
    (taken : Taken) : Prop where
  lookup : ∀ account, taken.lookup account = holder? opts entries account
  length : taken.length = (acceptedAccounts opts entries).card

theorem takenBy_nil (opts : VerifyOptions) : TakenBy opts [] [] := ⟨fun _ => rfl, rfl⟩

section

variable {opts : VerifyOptions} {earlier : List (DocPath × Allocation)} {taken : Taken}

/-- **One address**: what is wrong with it is listed, and if nothing is its account is taken. -/
theorem TakenBy.checkAddress_eq (h : TakenBy opts earlier taken) (path : DocPath)
    (entry : Allocation) :
    checkAddress opts taken path entry.address
      = (issuesAt [(path, addressProblem? opts earlier entry)],
        if addressProblem? opts earlier entry = none then (entry.account, path) :: taken
        else taken) := by
  unfold checkAddress addressProblem?
  rw [account_eq, ← Allocation.account]
  by_cases hempty : entry.address = ""
  · simp [hempty, issuesAt]
  by_cases hvalid : Address.isValid entry.address = false
  · simp [hempty, hvalid, issuesAt]
  by_cases hzero : opts.allowZeroAddress = false ∧ entry.account.isZero = true
  · simp [hempty, hvalid, hzero, issuesAt]
  · have hlookup := h.lookup entry.account
    simp only [hempty, hvalid, hzero, if_false]
    cases hholder : holder? opts earlier entry.account <;> simp [hlookup, hholder, issuesAt]

theorem TakenBy.concat (h : TakenBy opts earlier taken) (path : DocPath) (entry : Allocation) :
    TakenBy opts (earlier ++ [(path, entry)])
      (checkAddress opts taken (path.field "address") entry.address).2 := by
  rw [h.checkAddress_eq]
  by_cases haccepted : addressProblem? opts earlier entry = none
  · have hnew : entry.account ∉ acceptedAccounts opts earlier := by
      rw [mem_acceptedAccounts_iff, not_not]
      exact (addressProblem?_eq_none_iff.mp haccepted).2
    rw [if_pos haccepted]
    refine ⟨fun account => ?_, ?_⟩
    · rw [holder?_concat_eq, List.lookup_cons, h.lookup]
      by_cases hsame : entry.account = account
      · subst hsame
        simp [haccepted]
      · rw [beq_eq_false_iff_ne.mpr (Ne.symm hsame), if_neg fun hboth => hsame hboth.2]
    · rw [acceptedAccounts_concat, if_pos haccepted, Finset.card_insert_of_notMem hnew,
        List.length_cons, h.length]
  · rw [if_neg haccepted]
    refine ⟨fun account => ?_, ?_⟩
    · rw [holder?_concat_eq, if_neg fun hboth => haccepted hboth.1, h.lookup]
    · rw [acceptedAccounts_concat, if_neg haccepted, h.length]

end

/-! ## The whole list -/

theorem entriesPlaces_concat (opts : VerifyOptions) (entries : List (DocPath × Allocation))
    (entry : DocPath × Allocation) :
    entriesPlaces opts (entries ++ [entry])
      = entriesPlaces opts entries ++ entryPlaces opts entries entry := by
  rw [entriesPlaces, withEarlier_concat, List.flatMap_append, List.flatMap_singleton]
  rfl

/-- **All entries behind some others**: what is wrong at their places is listed, and the accounts
that are taken afterwards are those of all entries. -/
theorem checkEntries_eq {opts : VerifyOptions} {earlier : List (DocPath × Allocation)}
    {taken : Taken} (h : TakenBy opts earlier taken) (rest : List (DocPath × Allocation)) :
    issuesAt (entriesPlaces opts (earlier ++ rest))
        = issuesAt (entriesPlaces opts earlier) ++ (checkEntries opts taken rest).1
      ∧ TakenBy opts (earlier ++ rest) (checkEntries opts taken rest).2 := by
  induction rest generalizing earlier taken with
  | nil =>
      rw [checkEntries, List.append_nil, List.append_nil]
      exact ⟨rfl, h⟩
  | cons entry rest ih =>
      obtain ⟨path, entry⟩ := entry
      -- the first of the entries joins the earlier ones
      obtain ⟨hissues, htaken⟩ := ih (h.concat path entry)
      rw [List.append_assoc, List.singleton_append] at hissues htaken
      rw [hissues, entriesPlaces_concat, issuesAt_append, List.append_assoc]
      refine ⟨congrArg _ ?_, htaken⟩
      have hfirst : issuesAt (entryPlaces opts earlier (path, entry))
          = (checkAddress opts taken (path.field "address") entry.address).1
            ++ checkAmount (path.field "amount") entry.amount := by
        rw [h.checkAddress_eq, checkAmount_eq, ← issuesAt_append]
        rfl
      rw [hfirst]
      rfl

/-- An address is taken if it could be accepted and an accepted one before it has the account. The
problem points to the accepted one. -/
theorem addressProblem?_eq_taken_iff {opts : VerifyOptions}
    {earlier : List (DocPath × Allocation)} {entry : Allocation} {first : DocPath}
    {account : Address} :
    addressProblem? opts earlier entry = some (.addressTaken first account)
      ↔ entry.Admissible opts ∧ account = entry.account
        ∧ ∃ front holder back, earlier = front ++ holder :: back
          ∧ addressProblem? opts front holder.2 = none
          ∧ holder.2.account = account ∧ first = holder.1.field "address" := by
  have hproblem : addressProblem? opts earlier entry = some (.addressTaken first account)
      ↔ entry.Admissible opts ∧ account = entry.account
        ∧ holder? opts earlier entry.account = some first := by
    by_cases h : entry.Admissible opts
    · simp [addressProblem?_of_admissible h, h, and_comm, eq_comm]
    · obtain ⟨problem, hmem, hproblem⟩ := addressProblem?_of_not_admissible h
      have hne : problem ≠ .addressTaken first account := by
        rintro rfl
        simp at hmem
      simp [hproblem, h, hne]
  rw [hproblem]
  refine and_congr_right fun _ => and_congr_right fun haccount => ?_
  subst haccount
  constructor
  · intro h
    obtain ⟨holder, hfound, rfl⟩ := Option.map_eq_some_iff.mp h
    obtain ⟨hholder, front, back, rfl, hfront⟩ := List.find?_eq_some_iff_append.mp hfound
    rw [decide_eq_true_eq] at hholder
    refine ⟨front, holder, back, rfl, addressProblem?_eq_none_iff.mpr ⟨hholder.1, ?_⟩,
      hholder.2, rfl⟩
    rw [hholder.2, holder?, Option.map_eq_none_iff, List.find?_eq_none]
    intro other hmem hother
    exact absurd (hfront other hmem) (by rw [hother]; simp)
  · rintro ⟨front, holder, back, rfl, haccepted, haccount, rfl⟩
    obtain ⟨hadmissible, hnone⟩ := addressProblem?_eq_none_iff.mp haccepted
    rw [haccount, holder?] at hnone
    rw [holder?, List.find?_append, Option.map_or, hnone]
    simp [hadmissible, haccount]

/--
**Verification lists exactly what is wrong.** Nothing is listed if and only if the ledger is sound.
In any case the list is what is wrong at the places of the ledger, in their order: the rules of the
header and the buckets, and then for each entry its address, judged by the entries before it, and
its amount. An address counts as taken if an accepted one before it has the same account, and it is
the accepted one that is named. As many addresses are counted as there are accepted accounts.
-/
theorem verify_exact (opts : VerifyOptions) (ledger : Ledger) :
    ((ledger.verify opts).issues = [] ↔ ledger.Sound opts)
    ∧ (ledger.verify opts).issues
      = issuesAt (headerPlaces opts ledger ++ entriesPlaces opts ledger.entries)
    ∧ (∀ earlier entry first account,
      addressProblem? opts earlier entry = some (.addressTaken first account)
        ↔ entry.Admissible opts ∧ account = entry.account
          ∧ ∃ front holder back, earlier = front ++ holder :: back
            ∧ addressProblem? opts front holder.2 = none
            ∧ holder.2.account = account ∧ first = holder.1.field "address")
    ∧ (ledger.verify opts).addresses = (acceptedAccounts opts ledger.entries).card := by
  obtain ⟨hissues, htaken⟩ := checkEntries_eq (takenBy_nil opts) ledger.entries
  refine ⟨verify_issues_eq_nil_iff, ?_, fun _ _ _ _ => addressProblem?_eq_taken_iff,
    htaken.length⟩
  rw [issuesAt_append, ← checkHeader_eq]
  exact congrArg (checkHeader opts ledger ++ ·) hissues.symm

/-- A ledger with something wrong in every part: two allocations repeat the account of the first in
another case, one has a letter that is no digit in its address, and one account is zero. -/
def faultyLedger : Ledger where
  header := ⟨"gwei", 18, "QIK"⟩
  buckets := [
    ("a", ⟨"0x00000000000000000000000000000000000000AA", "7"⟩),
    ("b", ⟨"0x00000000000000000000000000000000000000aa", "-5"⟩),
    ("c", ⟨"0x00000000000000000000000000000000000000ag", "1"⟩)]
  operators := [
    ⟨"0x0000000000000000000000000000000000000000", "five"⟩,
    ⟨"0x00000000000000000000000000000000000000aA", "1"⟩]
  deployer := ⟨"", "12"⟩

/-- Both allocations that repeat an account point to the first, and one address is counted. -/
theorem verify_exact_faulty :
    (faultyLedger.verify defaultOptions).issues.map (Issue.display .plain)
      = ["meta.unit: must be wei",
        "buckets.b.address: duplicates buckets.a.address"
          ++ " (0x00000000000000000000000000000000000000aa)",
        "buckets.b.amount: must be non-negative",
        "buckets.c.address: must be 0x + 40 hex chars",
        "operators[0].address: zero address is not allowed",
        "operators[0].amount: must be a base-10 integer string",
        "operators[1].address: duplicates buckets.a.address"
          ++ " (0x00000000000000000000000000000000000000aa)",
        "deployer.address: is required"]
      ∧ (faultyLedger.verify defaultOptions).addresses = 1 := by
  obtain ⟨_, hissues, _, haddresses⟩ := verify_exact defaultOptions faultyLedger
  rw [hissues, haddresses]
  decide

end Ledger

end ChainGenesis
