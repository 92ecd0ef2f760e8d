import ChainGenesis.Ledger.Balances
import ChainGenesis.Proofs.Json.RoundTrip
import ChainGenesis.Proofs.Ledger.Entries
import ChainGenesis.Proofs.Ledger.Verified

/-!
# The balances of a ledger

A ledger is rendered if each of its entries has an address and an amount, so a sound one always
is. Every entry gives one account its amount, and as no account of a sound ledger is given twice
no amount is lost to a repeated name. What the accounts hold together, read back from the map,
is the total.
-/

namespace ChainGenesis

/-! ## Entries -/

namespace Allocation

/-- An allocation with an address and an amount. -/
structure Renderable (entry : Allocation) : Prop where
  address : Address.isValid entry.address = true
  amount : Wei.isDigitString entry.amount = true

theorem Sound.renderable {opts : VerifyOptions} {entry : Allocation} (h : entry.Sound opts) :
    entry.Renderable := ⟨h.address, h.amount⟩

/-- The member of a map of funded accounts that an allocation stands for: its address in
lowercase, and its amount in plain decimal. -/
def funded (entry : Allocation) : String × Document :=
  (Text.lowercase entry.address, .object [("balance", .string entry.wei.text)])

/-- What an entry at a place is refused for, if it is: its address, or else its amount. -/
def problem? (place : String) (entry : Allocation) : Option AllocationProblem :=
  match Address.parse entry.address, Wei.parse entry.amount with
  | .error rejection, _ => some (.unparsable (place ++ ".address") rejection)
  | .ok _, .error rejection => some (.unparsable (place ++ ".amount") rejection)
  | .ok _, .ok _ => none

theorem problem?_eq_none_iff {place : String} {entry : Allocation} :
    entry.problem? place = none ↔ entry.Renderable := by
  unfold problem?
  constructor
  · intro h
    split at h
    · exact absurd h (by simp)
    · exact absurd h (by simp)
    · rename_i haddress hamount
      exact ⟨(Address.parse_eq_ok_iff.mp haddress).1, (Wei.parse_eq_ok_iff.mp hamount).1⟩
  · intro h
    rw [Address.parse_eq_ok_iff.mpr ⟨h.address, rfl⟩, Wei.parse_eq_ok_iff.mpr ⟨h.amount, rfl⟩]

/-- Whatever is made of the address and the amount of an entry, it is made of its account and its
amount in wei, unless there is something wrong with it. -/
theorem parsed_eq {α : Type} (entry : Allocation) (place : String) (made : Address → Wei → α) :
    (match Address.parse entry.address with
      | .error rejection => Except.error (.unparsable (place ++ ".address") rejection)
      | .ok address =>
        match Wei.parse entry.amount with
        | .error rejection => .error (.unparsable (place ++ ".amount") rejection)
        | .ok amount => .ok (made address amount))
      = okUnless (entry.problem? place) (made entry.account entry.wei) := by
  unfold problem?
  cases haddress : Address.parse entry.address with
  | error rejection => rfl
  | ok address =>
      obtain ⟨_, rfl⟩ := Address.parse_eq_ok_iff.mp haddress
      cases hamount : Wei.parse entry.amount with
      | error rejection => rfl
      | ok amount =>
          obtain ⟨_, rfl⟩ := Wei.parse_eq_ok_iff.mp hamount
          rfl

end Allocation

namespace Ledger

/-- One more entry gives its account its amount, unless there is something wrong with it. -/
theorem Alloc.add_eq (alloc : Alloc) (path : DocPath) (entry : Allocation) :
    alloc.add path entry = okUnless (entry.problem? path.text)
      ⟨alloc.accounts.put entry.funded.1 entry.funded.2, alloc.total + entry.wei⟩ :=
  entry.parsed_eq path.text fun address amount =>
    Alloc.mk (alloc.accounts.put address.text (balance amount)) (alloc.total + amount)

/-- Entries are added one after the other up to the first that something is wrong with. -/
theorem Alloc.addAll_eq (alloc : Alloc) (entries : List (DocPath × Allocation)) :
    entries.foldlM (fun alloc entry => alloc.add entry.1 entry.2) alloc
      = okUnless (entries.findSome? fun entry => entry.2.problem? entry.1.text)
        ⟨alloc.accounts.putAll (entries.map fun entry => entry.2.funded),
          (entries.map fun entry => entry.2.wei).foldl (· + ·) alloc.total⟩ := by
  induction entries generalizing alloc with
  | nil => rfl
  | cons entry rest ih =>
      rw [List.foldlM_cons, add_eq, List.findSome?_cons]
      cases entry.2.problem? entry.1.text with
      | none => exact ih _
      | some problem => rfl

/-! ## The ledger -/

/-- What a ledger is refused for, if it is: the first problem of its entries. -/
def problem? (ledger : Ledger) : Option AllocationProblem :=
  ledger.entries.findSome? fun entry => entry.2.problem? entry.1.text

theorem problem?_eq_none_iff {ledger : Ledger} :
    ledger.problem? = none ↔ ∀ entry ∈ ledger.entries, entry.2.Renderable := by
  rw [problem?, List.findSome?_eq_none_iff]
  exact forall₂_congr fun _ _ => Allocation.problem?_eq_none_iff

/-- The accounts that a ledger funds. -/
def funds (ledger : Ledger) : List (String × Document) :=
  ledger.entries.map fun entry => entry.2.funded

theorem map_fst_funds (ledger : Ledger) : ledger.funds.map Prod.fst
    = ledger.entries.map fun entry => Text.lowercase entry.2.address := by
  rw [funds, List.map_map]
  rfl

/-- **A ledger is rendered unless one of its entries has a problem,** and then every entry goes
into the map and into the total. -/
theorem alloc_eq (ledger : Ledger) : ledger.alloc = okUnless ledger.problem?
    ⟨Named.ofList ledger.funds, Wei.sum (ledger.entries.map fun entry => entry.2.wei)⟩ :=
  Alloc.addAll_eq .empty ledger.entries

theorem alloc_eq_ok_iff {ledger : Ledger} {alloc : Alloc} :
    ledger.alloc = .ok alloc ↔ (∀ entry ∈ ledger.entries, entry.2.Renderable)
      ∧ alloc
        = ⟨Named.ofList ledger.funds, Wei.sum (ledger.entries.map fun entry => entry.2.wei)⟩ := by
  rw [alloc_eq, okUnless_eq_ok_iff, problem?_eq_none_iff, eq_comm (a := alloc)]

/-- If no two entries have one account, no two members of the map have one name. -/
theorem nodup_funds {ledger : Ledger}
    (h : (ledger.entries.map fun entry => entry.2.account).Nodup) :
    (ledger.funds.map Prod.fst).Nodup := by
  -- an address is its text, so accounts that differ have different names
  have hmap : ledger.funds.map Prod.fst
      = (ledger.entries.map fun entry => entry.2.account).map Address.text := by
    rw [funds, List.map_map, List.map_map]
    rfl
  rw [hmap, List.Nodup, List.pairwise_map]
  refine List.Pairwise.imp (fun {a b} hne heq => hne ?_) h
  cases a
  cases b
  exact congrArg Address.mk heq

/-! ## The sound ledger -/

theorem Sound.renderable {opts : VerifyOptions} {ledger : Ledger} (h : ledger.Sound opts) :
    ∀ entry ∈ ledger.entries, entry.2.Renderable :=
  fun entry hmem => (h.entries entry hmem).renderable

theorem Sound.alloc {opts : VerifyOptions} {ledger : Ledger} (h : ledger.Sound opts) :
    ledger.alloc
      = .ok ⟨Named.ofList ledger.funds, Wei.sum (ledger.entries.map fun entry => entry.2.wei)⟩ :=
  alloc_eq_ok_iff.mpr ⟨h.renderable, rfl⟩

/-- No two accounts that a sound ledger funds are one. -/
theorem Sound.nodup_funds {opts : VerifyOptions} {ledger : Ledger} (h : ledger.Sound opts) :
    (ledger.funds.map Prod.fst).Nodup := Ledger.nodup_funds h.distinct

/-- **A sound ledger funds every account it names, each once, and no other.** -/
theorem Sound.accounts_perm {opts : VerifyOptions} {ledger : Ledger} (h : ledger.Sound opts) :
    (Named.ofList ledger.funds).Perm ledger.funds := Named.ofList_perm h.nodup_funds

/-! ## What accounts hold -/

/-- The balance of a funded account, if it states one. -/
def balance? (account : Document) : Option Wei :=
  match account.at? ["balance"] with
  | some (.string text) => (Wei.parse text).toOption
  | _ => none

/-- What the accounts of a map hold together; none if one of them states no balance. -/
def premine? : Members → Option Wei
  | [] => some .zero
  | (_, account) :: rest =>
    match balance? account, premine? rest with
    | some amount, some others => some (amount + others)
    | _, _ => none

theorem balance?_funded (entry : Allocation) : balance? entry.funded.2 = some entry.wei := by
  show (Wei.parse entry.wei.text).toOption = some entry.wei
  rw [Wei.parse_text]
  rfl

/-- The order of the accounts does not matter to what they hold. -/
theorem premine?_perm {accounts others : Members} (h : accounts.Perm others) :
    premine? accounts = premine? others := by
  induction h with
  | nil => rfl
  | cons account _ ih =>
      obtain ⟨name, account⟩ := account
      rw [premine?, premine?, ih]
  | swap a b rest =>
      obtain ⟨first, a⟩ := a
      obtain ⟨second, b⟩ := b
      rw [premine?, premine?, premine?, premine?]
      cases balance? a with
      | none => cases balance? b <;> rfl
      | some x =>
          cases balance? b with
          | none => cases premine? rest <;> rfl
          | some y =>
              cases premine? rest with
              | none => rfl
              | some z => exact congrArg some (Wei.add_left_comm y x z)
  | trans _ _ ih ih' => exact ih.trans ih'

theorem premine?_funded (entries : List (DocPath × Allocation)) :
    premine? (entries.map fun entry => entry.2.funded)
      = some (Wei.sum (entries.map fun entry => entry.2.wei)) := by
  induction entries with
  | nil => rfl
  | cons entry rest ih =>
      obtain ⟨path, entry⟩ := entry
      show (match balance? entry.funded.2,
          premine? (rest.map fun entry => entry.2.funded) with
        | some amount, some others => some (amount + others)
        | _, _ => none) = _
      rw [balance?_funded, ih, List.map_cons, Wei.sum_cons]

/-- **The accounts of a sound ledger hold its total together.** -/
theorem Sound.premine? {opts : VerifyOptions} {ledger : Ledger} (h : ledger.Sound opts) :
    Ledger.premine? (Named.ofList ledger.funds)
      = some (Wei.sum (ledger.entries.map fun entry => entry.2.wei)) :=
  (premine?_perm h.accounts_perm).trans (premine?_funded ledger.entries)

/-! ## The text of the balances -/

theorem exact_funds (ledger : Ledger) : ∀ member ∈ Named.ofList ledger.funds,
    member.2.Exact ∧ member.2.Ordered ∧ member.2.nesting ≤ 1 := by
  intro member hmem
  obtain ⟨entry, _, heq⟩ := List.mem_map.mp (Document.mem_of_mem_ofList hmem)
  subst heq
  exact ⟨⟨trivial, trivial⟩, ⟨List.pairwise_singleton _ _, trivial, trivial⟩, Nat.le_refl _⟩

theorem Alloc.exact {ledger : Ledger} {alloc : Alloc}
    (h : alloc.accounts = Named.ofList ledger.funds) : alloc.document.Exact := by
  have hall := exact_funds ledger
  rw [← h] at hall
  exact Document.exactMembers_iff.mpr fun member hmem => (hall member hmem).1

theorem Alloc.ordered {ledger : Ledger} {alloc : Alloc}
    (h : alloc.accounts = Named.ofList ledger.funds) :
    (Document.object alloc.accounts).Ordered := by
  have hall := exact_funds ledger
  rw [← h] at hall
  exact ⟨h ▸ Named.ordered_ofList _,
    Document.orderedMembers_iff.mpr fun member hmem => (hall member hmem).2.1⟩

/-- **The text of the balances is read back as the balances.** -/
theorem Alloc.parse_text {ledger : Ledger} {alloc : Alloc}
    (h : alloc.accounts = Named.ofList ledger.funds) :
    Document.parse alloc.text = .ok (.object alloc.accounts) := by
  have hall := exact_funds ledger
  rw [← h] at hall
  -- two levels of nesting: the map and the account
  refine (Alloc.ordered h).parse_canonical .pretty (Alloc.exact h) (Nat.succ_le_succ ?_)
  refine Document.nestingOfMembers_le_iff.mpr fun member hmem => ?_
  exact Nat.le_trans (hall member hmem).2.2 (by decide)

end Ledger

end ChainGenesis
