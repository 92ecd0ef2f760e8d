import ChainGenesis.Proofs.Address
import ChainGenesis.Proofs.Amount
import ChainGenesis.Proofs.Merge
import ChainGenesis.Proofs.SplitVerdict

/-!
# What is found in a genesis

The findings on a raw genesis are a list of rules with the broken ones left over. Which rules
there are depends on the accounts alone: two for each of them, and five for the genesis itself.
No rule is passed over when another is broken and none is reported twice, so the number of
errors is the number of broken rules, and a genesis without errors is one that is sound.
-/

namespace ChainGenesis

/-! ## Rules -/

/-- A rule for a document, and the issue that is reported where it is broken. -/
structure Rule where
  issue : Issue
  met : Bool

namespace Rule

/-- The issues of the rules that are broken, in the order of the rules. -/
def violations (rules : List Rule) : List Issue :=
  (rules.filter fun rule => !rule.met).map issue

/-- How many rules are broken. -/
def broken (rules : List Rule) : Nat := rules.countP fun rule => !rule.met

theorem violations_cons (rule : Rule) (rules : List Rule) :
    violations (rule :: rules) = (if rule.met then [] else [rule.issue]) ++ violations rules := by
  cases hmet : rule.met <;> simp [violations, hmet]

theorem violations_append (rules others : List Rule) :
    violations (rules ++ others) = violations rules ++ violations others := by
  rw [violations, List.filter_append, List.map_append]
  rfl

theorem violations_flatMap {α : Type} (rules : α → List Rule) (xs : List α) :
    violations (xs.flatMap rules) = xs.flatMap fun x => violations (rules x) := by
  induction xs with
  | nil => rfl
  | cons x xs ih => rw [List.flatMap_cons, violations_append, ih, List.flatMap_cons]

theorem length_violations (rules : List Rule) : (violations rules).length = broken rules := by
  rw [violations, List.length_map, ← List.countP_eq_length_filter]
  rfl

theorem violations_eq_nil_iff {rules : List Rule} :
    violations rules = [] ↔ ∀ rule ∈ rules, rule.met = true := by
  rw [violations, List.map_eq_nil_iff, List.filter_eq_nil_iff]
  simp

/-- What is true of the issues of all rules, that no two are alike, is true of the violations. -/
theorem nodup_violations {β : Type} {rules : List Rule} (f : Issue → β)
    (h : (rules.map fun rule => f rule.issue).Nodup) : ((violations rules).map f).Nodup := by
  rw [violations, List.map_map]
  exact h.sublist (List.filter_sublist.map _)

end Rule

namespace Document

/-! ## Kinds of documents -/

theorem isString_iff {doc : Document} : doc.isString = true ↔ ∃ text, doc = string text := by
  cases doc <;> simp [isString, text?]

theorem isBool_iff {doc : Document} : doc.isBool = true ↔ ∃ value, doc = bool value := by
  cases doc <;> simp [isBool]

theorem objectAt_of_get? {top members : Members} {name : String}
    (h : (object top).get? name = some (.object members)) : objectAt top name = members := by
  rw [objectAt, ← get?_object, h]
  rfl

end Document

namespace Validation

/-! ## The rules for a genesis -/

/-- Whether a value is a string of decimal digits, and of one at least. -/
def isDigits (value : Document) : Bool :=
  match value with
  | .string text => Wei.isDigitString text
  | _ => false

/-- The rule for the value of an account: an object with a balance in digits. -/
def valueRule (path : DocPath) (value : Document) : Rule :=
  match value with
  | .object members =>
    ⟨⟨path.field "balance", .balanceNotDigits⟩, (Named.lookup? "balance" members).any isDigits⟩
  | _ => ⟨⟨path, .notObject⟩, false⟩

/-- The rules for an account: its key is an address, and its value has a balance. -/
def accountRules (account : String × Document) : List Rule :=
  let path := DocPath.root.field "alloc" |>.field account.1
  [⟨⟨path, .keyNotAddress⟩, decide (Address.Spelled account.1)⟩, valueRule path account.2]

/-- The rule for a member of a genesis that has to be there. -/
def memberRule (top : Members) (name : String) (problem : Problem) (kind : Document → Bool) :
    Rule :=
  ⟨⟨DocPath.root.field name, problem⟩, (Named.lookup? name top).any kind⟩

/-- All rules for a genesis, those for the accounts in the order of their keys. -/
def genesisRules (top : Members) : List Rule :=
  [memberRule top "alloc" .notObject Document.isObject]
    ++ (Document.objectAt top "alloc").flatMap accountRules
    ++ ["gasLimit", "difficulty", "extraData"].map
      (fun name => memberRule top name .stringRequired Document.isString)
    ++ [memberRule top "baseFeeEnabled" .booleanRequired Document.isBool]

/-! ## The findings are the violations -/

theorem errors_checkBalance (path : DocPath) (balance : Option Document) :
    (checkBalance path balance).errors
      = Rule.violations [⟨⟨path.field "balance", .balanceNotDigits⟩, balance.any isDigits⟩] := by
  unfold checkBalance
  split
  · rename_i text
    rw [Option.any_some, isDigits]
    cases Wei.isDigitString text <;> rfl
  · rename_i hnot
    have hdigits : balance.any isDigits = false := by
      rw [Option.any_eq_false]
      rintro (_ | _ | _ | text | _ | _) hsome
      case string => exact absurd hsome (hnot text)
      all_goals rfl
    rw [hdigits]
    rfl

theorem errors_checkFunded (account : String × Document) :
    (checkFunded (DocPath.root.field "alloc" |>.field account.1) account.1 account.2).errors
      = Rule.violations (accountRules account) := by
  obtain ⟨key, value⟩ := account
  unfold checkFunded accountRules
  rw [Rule.violations_cons, Findings.errors_append, Address.decide_spelled]
  congr 1
  · cases Address.isValid key <;> rfl
  · cases value with
    | object members => exact errors_checkBalance _ _
    | null | bool _ | number _ | string _ | array _ => rfl

theorem errors_checkAlloc (top : Members) :
    (checkAlloc (DocPath.root.field "alloc") (Named.lookup? "alloc" top)).errors
      = Rule.violations ([memberRule top "alloc" .notObject Document.isObject]
        ++ (Document.objectAt top "alloc").flatMap accountRules) := by
  rw [List.singleton_append, Rule.violations_cons, memberRule, Document.objectAt]
  cases hvalue : Named.lookup? "alloc" top with
  | none => rfl
  | some value =>
      cases value with
      | object accounts =>
          show (Findings.concat (accounts.map _)).errors = Rule.violations (accounts.flatMap _)
          rw [Findings.errors_concat, List.flatMap_map, Rule.violations_flatMap]
          exact congrArg accounts.flatMap (funext errors_checkFunded)
      | null | bool _ | number _ | string _ | array _ => rfl

theorem errors_checkString (top : Members) (name : String) :
    (checkString (DocPath.root.field name) (Named.lookup? name top)).errors
      = Rule.violations [memberRule top name .stringRequired Document.isString] := by
  rw [memberRule]
  cases Named.lookup? name top with
  | none => rfl
  | some value => cases value <;> rfl

theorem errors_checkBool (top : Members) (name : String) :
    (checkBool (DocPath.root.field name) (Named.lookup? name top)).errors
      = Rule.violations [memberRule top name .booleanRequired Document.isBool] := by
  rw [memberRule]
  cases Named.lookup? name top with
  | none => rfl
  | some value => cases value <;> rfl

/-- **The errors on a genesis are the violations of its rules.** -/
theorem errors_rawGenesis (top : Members) :
    (rawGenesis (.object top)).errors = Rule.violations (genesisRules top) := by
  rw [rawGenesis, checkGenesis, genesisRules, Rule.violations_append, Rule.violations_append,
    Findings.errors_append, Findings.errors_append, errors_checkAlloc, errors_checkBool,
    Findings.errors_concat, List.flatMap_map, List.map_eq_flatMap, Rule.violations_flatMap]
  simp only [errors_checkString]

/-! ## No two rules are reported alike -/

/-- What can be wrong with an account, and where below it. -/
def accountProblems : List (Problem × String) :=
  [(.keyNotAddress, ""), (.notObject, ""), (.balanceNotDigits, ".balance")]

/-- An issue is shown as one about the account under a key. -/
def OfAccount (key : String) (shown : String × String) : Prop :=
  ∃ kind ∈ accountProblems, shown = ("alloc." ++ key ++ kind.2, kind.1.message .plain)

theorem OfAccount.key_eq {key other : String} {shown : String × String}
    (h : OfAccount key shown) (h' : OfAccount other shown) : key = other := by
  obtain ⟨kind, hmem, rfl⟩ := h
  obtain ⟨kind', hmem', heq⟩ := h'
  injection heq with hpath hmessage
  -- the message says the kind, and among issues of one kind the path says the key
  have hkinds : ∀ a ∈ accountProblems, ∀ b ∈ accountProblems,
      a.1.message .plain = b.1.message .plain → a = b := by decide
  rw [hkinds kind hmem kind' hmem' hmessage, String.append_left_inj,
    String.append_right_inj] at hpath
  exact hpath

theorem pathText_below_account (key : String) (below : DocPath) (problem : Problem) :
    Issue.pathText ⟨.field "alloc" :: .field key :: below, problem⟩
      = "alloc." ++ key ++ DocPath.stepsText below := by
  show "alloc" ++ ("." ++ key ++ DocPath.stepsText below)
    = "alloc" ++ "." ++ key ++ DocPath.stepsText below
  rw [String.append_assoc, String.append_assoc, String.append_assoc]

/-- None of these issues is worded by anyone else. -/
theorem ofAccount_of_mem (words : Wording) {account : String × Document} {rule : Rule}
    (h : rule ∈ accountRules account) : OfAccount account.1 (rule.issue.shown words) := by
  obtain ⟨key, value⟩ := account
  have hself := pathText_below_account key []
  have hbalance := pathText_below_account key [.field "balance"]
  rcases List.mem_pair.mp h with rfl | rfl
  · exact ⟨(.keyNotAddress, ""), by decide, congrArg (·, _) (hself _)⟩
  · cases value with
    | object members =>
        exact ⟨(.balanceNotDigits, ".balance"), by decide, congrArg (·, _) (hbalance _)⟩
    | null | bool _ | number _ | string _ | array _ =>
        exact ⟨(.notObject, ""), by decide, congrArg (·, _) (hself _)⟩

theorem problem_valueRule (path : DocPath) (value : Document) :
    (valueRule path value).issue.problem ∈ [.balanceNotDigits, .notObject] := by
  cases value <;> simp [valueRule]

theorem nodup_accountRules (words : Wording) (account : String × Document) :
    ((accountRules account).map fun rule => rule.issue.shown words).Nodup := by
  rw [accountRules, List.map_cons, List.map_singleton, List.nodup_cons, List.mem_singleton]
  refine ⟨fun h => ?_, List.nodup_singleton _⟩
  have hmessage : Problem.keyNotAddress.message words = Problem.message words _ :=
    congrArg Prod.snd h
  have hother : ∀ problem ∈ [Problem.balanceNotDigits, .notObject],
      Problem.keyNotAddress.message .plain ≠ problem.message .plain := by decide
  -- these are not worded by anyone else
  have hplain : ∀ problem ∈ [Problem.balanceNotDigits, .notObject],
      problem.message words = problem.message .plain :=
    List.forall_mem_cons.mpr ⟨rfl, List.forall_mem_singleton.mpr rfl⟩
  have hmem := problem_valueRule (DocPath.root.field "alloc" |>.field account.1) account.2
  exact hother _ hmem (hmessage.trans (hplain _ hmem))

/-- What is shown of the rules for the genesis itself. -/
def ownShown : List (String × String) :=
  [("alloc", .notObject), ("gasLimit", .stringRequired), ("difficulty", .stringRequired),
    ("extraData", .stringRequired), ("baseFeeEnabled", .booleanRequired)].map
      fun (path, problem) => (path, Problem.message .plain problem)

theorem OfAccount.not_mem_ownShown {key : String} {shown : String × String}
    (h : OfAccount key shown) : shown ∉ ownShown := by
  obtain ⟨kind, hkind, rfl⟩ := h
  intro hmem
  -- the one message in common is about the map of all accounts, whose path is shorter
  have hown : ∀ own ∈ ownShown, ∀ kind ∈ accountProblems,
      own.2 = kind.1.message .plain → own.1.length = 5 := by decide
  have hlength : ("alloc." ++ key ++ kind.2).length = 5 := hown _ hmem kind hkind rfl
  have hsix : "alloc.".length = 6 := rfl
  rw [String.length_append, String.length_append] at hlength
  omega

/-- The rules for accounts in order of their keys are all shown apart. -/
theorem nodup_accounts (words : Wording) {accounts : Members} (h : Named.Ordered accounts) :
    ((accounts.flatMap accountRules).map fun rule => rule.issue.shown words).Nodup := by
  rw [List.map_flatMap, List.nodup_flatMap]
  refine ⟨fun account _ => nodup_accountRules words account, h.imp fun {account other} hlt => ?_⟩
  intro shown hmem hmem'
  obtain ⟨rule, hrule, rfl⟩ := List.mem_map.mp hmem
  obtain ⟨rule', hrule', heq⟩ := List.mem_map.mp hmem'
  have hother := ofAccount_of_mem words hrule'
  rw [heq] at hother
  have hkey : account.1 = other.1 := (ofAccount_of_mem words hrule).key_eq hother
  exact String.lt_irrefl other.1 (hkey ▸ hlt)

/-- **No two rules for a genesis are reported alike.** -/
theorem nodup_genesisRules (words : Wording) {top : Members}
    (h : Named.Ordered (Document.objectAt top "alloc")) :
    ((genesisRules top).map fun rule => rule.issue.shown words).Nodup := by
  have hperm : ((genesisRules top).map fun rule => rule.issue.shown words).Perm
      (ownShown ++ ((Document.objectAt top "alloc").flatMap accountRules).map
        fun rule => rule.issue.shown words) := by
    simp only [genesisRules, List.map_append, List.append_assoc]
    exact List.Perm.cons _ (@List.perm_append_comm _ _ ownShown.tail)
  rw [hperm.nodup_iff, List.nodup_append']
  refine ⟨by decide, nodup_accounts words h, fun shown hown hmem => ?_⟩
  obtain ⟨rule, hrule, rfl⟩ := List.mem_map.mp hmem
  obtain ⟨account, _, haccount⟩ := List.mem_flatMap.mp hrule
  exact (ofAccount_of_mem words haccount).not_mem_ownShown hown

/-! ## Sound genesis -/

/-- An account that may be funded: under an address, with a balance in decimal digits. -/
structure SoundAccount (account : String × Document) : Prop where
  address : Address.Spelled account.1
  balance : ∃ text, account.2.get? "balance" = some (.string text)
    ∧ text.toList ≠ [] ∧ ∀ c ∈ text.toList, c.isDigit = true

/-- A genesis with everything that a genesis must have. -/
structure SoundGenesis (doc : Document) : Prop where
  accounts : ∃ accounts, doc.get? "alloc" = some (.object accounts)
    ∧ ∀ account ∈ accounts, SoundAccount account
  strings : ∀ name ∈ ["gasLimit", "difficulty", "extraData"],
    ∃ text, doc.get? name = some (.string text)
  baseFee : ∃ value, doc.get? "baseFeeEnabled" = some (.bool value)

theorem isDigits_iff {value : Document} :
    isDigits value = true ↔ ∃ text, value = .string text
      ∧ text.toList ≠ [] ∧ ∀ c ∈ text.toList, c.isDigit = true := by
  cases value with
  | string text =>
      rw [isDigits, Wei.isDigitString_iff]
      constructor
      · exact fun h => ⟨text, rfl, h⟩
      · rintro ⟨_, heq, h⟩
        injection heq with heq
        exact heq ▸ h
  | null | bool _ | number _ | array _ | object _ => simp [isDigits]

theorem met_accountRules_iff {account : String × Document} :
    (∀ rule ∈ accountRules account, rule.met = true) ↔ SoundAccount account := by
  have hvalue : ∀ path, (valueRule path account.2).met = true
      ↔ ∃ text, account.2.get? "balance" = some (.string text)
        ∧ text.toList ≠ [] ∧ ∀ c ∈ text.toList, c.isDigit = true := by
    intro path
    obtain ⟨key, value⟩ := account
    cases value with
    | object members =>
        show (Named.lookup? "balance" members).any isDigits = true ↔ _
        simp only [Option.any_eq_true, isDigits_iff, Document.get?_object]
        constructor
        · rintro ⟨_, hlookup, text, rfl, h⟩
          exact ⟨text, hlookup, h⟩
        · rintro ⟨text, hlookup, h⟩
          exact ⟨_, hlookup, text, rfl, h⟩
    | null | bool _ | number _ | string _ | array _ =>
        simp [valueRule, Document.get?, Document.members?]
  rw [accountRules, List.forall_mem_cons, List.forall_mem_singleton, hvalue, decide_eq_true_iff]
  constructor
  · rintro ⟨address, balance⟩
    exact ⟨address, balance⟩
  · intro h
    exact ⟨h.address, h.balance⟩

/-- The rule for a member is met by a value of its kind. -/
theorem met_memberRule_iff {α : Type} {kind : Document → Bool} {make : α → Document}
    (hkind : ∀ value, kind value = true ↔ ∃ x, value = make x) {top : Members} {name : String}
    {problem : Problem} :
    (memberRule top name problem kind).met = true
      ↔ ∃ x, (Document.object top).get? name = some (make x) := by
  rw [memberRule, Option.any_eq_true]
  constructor
  · rintro ⟨value, hlookup, h⟩
    obtain ⟨x, rfl⟩ := (hkind value).mp h
    exact ⟨x, hlookup⟩
  · rintro ⟨x, hlookup⟩
    exact ⟨make x, hlookup, (hkind _).mpr ⟨x, rfl⟩⟩

/-- **A genesis has no errors exactly if it is sound.** -/
theorem errors_rawGenesis_eq_nil_iff {doc : Document} :
    (rawGenesis doc).errors = [] ↔ SoundGenesis doc := by
  cases hobject : doc.isObject with
  | false =>
      rw [rawGenesis_of_not_object hobject]
      refine iff_of_false (by simp [Findings.error]) fun h => ?_
      obtain ⟨_, hget, _⟩ := h.accounts
      obtain ⟨_, rfl, _⟩ := Document.get?_eq_some hget
      exact absurd hobject Bool.noConfusion
  | true =>
      obtain ⟨top, rfl⟩ := Document.isObject_iff.mp hobject
      rw [errors_rawGenesis, Rule.violations_eq_nil_iff, genesisRules]
      simp only [List.forall_mem_append, List.forall_mem_map, List.forall_mem_flatMap,
        List.forall_mem_singleton, met_accountRules_iff,
        met_memberRule_iff (fun _ => Document.isObject_iff),
        met_memberRule_iff (fun _ => Document.isString_iff),
        met_memberRule_iff (fun _ => Document.isBool_iff)]
      constructor
      · rintro ⟨⟨⟨⟨accounts, halloc⟩, haccounts⟩, hstrings⟩, hbase⟩
        rw [Document.objectAt_of_get? halloc] at haccounts
        exact ⟨⟨accounts, halloc, haccounts⟩, hstrings, hbase⟩
      · rintro ⟨⟨accounts, halloc, haccounts⟩, hstrings, hbase⟩
        refine ⟨⟨⟨⟨accounts, halloc⟩, ?_⟩, hstrings⟩, hbase⟩
        rwa [Document.objectAt_of_get? halloc]

/-! ## The verdict -/

/-- A failure says the first violation, and how many rules are broken. -/
theorem accept_of_violations {found : Findings} {rules : List Rule}
    (h : found.errors = Rule.violations rules) :
    Build.accept found = match Rule.violations rules with
      | [] => .ok ()
      | first :: _ => .error (.validation first (Rule.broken rules)) := by
  have hlength := Rule.length_violations rules
  rw [Build.accept, h]
  cases hviolations : Rule.violations rules with
  | nil => rfl
  | cons first rest =>
      rw [hviolations, List.length_cons] at hlength
      dsimp only
      rw [hlength]

/--
**Every violation of a genesis is reported once.** The errors on a genesis that is an object are
the issues of the broken rules in the order of the rules, which for the accounts is the order of
their keys, and no two are shown alike. A genesis has no errors exactly if it is sound, and a
failure says the first violation and the number of broken rules.
-/
theorem rawGenesis_exact (words : Wording) {top : Members} (h : (Document.object top).Ordered) :
    (rawGenesis (.object top)).errors = Rule.violations (genesisRules top)
      ∧ Named.Ordered (Document.objectAt top "alloc")
      ∧ ((rawGenesis (.object top)).errors.map (Issue.shown words)).Nodup
      ∧ ((rawGenesis (.object top)).errors = [] ↔ SoundGenesis (.object top))
      ∧ Build.accept (rawGenesis (.object top)) = match Rule.violations (genesisRules top) with
        | [] => .ok ()
        | first :: _ => .error (.validation first (Rule.broken (genesisRules top))) := by
  have herrors := errors_rawGenesis top
  have hkeys : Named.Ordered (Document.objectAt top "alloc") := (h.objectAt "alloc").1
  refine ⟨herrors, hkeys, ?_, errors_rawGenesis_eq_nil_iff, accept_of_violations herrors⟩
  rw [herrors]
  exact Rule.nodup_violations (Issue.shown words) (nodup_genesisRules words hkeys)

/-- A genesis in which each kind of rule is broken: a balance below zero, a balance that stands
for its account, a key that is no address, and three members that are missing or mistaken. -/
def brokenMembers : Members := [
  ("alloc", .object [
    ("0x1000000000000000000000000000000000000001", .object [("balance", .string "-1")]),
    ("0x1000000000000000000000000000000000000002", .string "100"),
    ("0xnothex", .object [("balance", .string "1")])]),
  ("difficulty", .number (.integer 1)),
  ("extraData", .string "0x")]

theorem rawGenesis_exact_broken :
    (rawGenesis (.object brokenMembers)).errors.map (Issue.shown .plain)
        = [("alloc.0x1000000000000000000000000000000000000001.balance",
            "must be a non-negative base-10 digit string"),
          ("alloc.0x1000000000000000000000000000000000000002", "must be an object"),
          ("alloc.0xnothex", "key is not an address"),
          ("gasLimit", "is required and must be a string"),
          ("difficulty", "is required and must be a string"),
          ("baseFeeEnabled", "is required and must be a boolean")]
      ∧ Build.accept (rawGenesis (.object brokenMembers))
        = .error (.validation ⟨DocPath.root.field "alloc"
          |>.field "0x1000000000000000000000000000000000000001" |>.field "balance",
          .balanceNotDigits⟩ 6) := by
  obtain ⟨herrors, _, _, _, haccept⟩ :=
    rawGenesis_exact .plain (by decide : (Document.object brokenMembers).Ordered)
  rw [herrors, haccept]
  exact ⟨by decide, by decide⟩

/-! ## The accounts of an accepted genesis -/

/--
**What the accounts of an accepted genesis are.** Every key is parsed as an address, and two
keys as one address exactly if they differ in nothing but the case of letters. Keys are compared
as they are written, so every account is funded once exactly if no two keys differ in case alone.
-/
theorem accounts_of_accepted {doc : Document} (h : (rawGenesis doc).errors = []) :
    ∃ accounts : Members, doc.get? "alloc" = some (.object accounts)
      ∧ (∀ account ∈ accounts, ∃ address, Address.parse account.1 = .ok address)
      ∧ (∀ account ∈ accounts, ∀ other ∈ accounts,
        Address.parse account.1 = Address.parse other.1
          ↔ Text.sameWord account.1 other.1 = true)
      ∧ ((accounts.map fun account => Address.parse account.1).Nodup
        ↔ (accounts.map fun account => Text.lowercase account.1).Nodup) := by
  obtain ⟨accounts, halloc, hsound⟩ := (errors_rawGenesis_eq_nil_iff.mp h).accounts
  have hvalid : ∀ account ∈ accounts, Address.isValid account.1 = true :=
    fun account hmem => Address.isValid_iff.mpr (hsound account hmem).address
  have hparse : ∀ account ∈ accounts,
      Address.parse account.1 = .ok ⟨Text.lowercase account.1⟩ :=
    fun account hmem => Address.parse_eq_ok_iff.mpr ⟨hvalid account hmem, rfl⟩
  refine ⟨accounts, halloc, fun account hmem => ⟨_, hparse account hmem⟩,
    fun account hmem other hmem' =>
      Address.parse_eq_parse_iff (hvalid account hmem) (hvalid other hmem'), ?_⟩
  have hmap : accounts.map (fun account => Address.parse account.1)
      = (accounts.map fun account => Text.lowercase account.1).map
        fun text => Except.ok ⟨text⟩ := by
    rw [List.map_map]
    exact List.map_congr_left hparse
  rw [hmap, List.nodup_map_iff fun text other heq => by
    injection heq with heq
    injection heq]

/-- A genesis that funds one account under two spellings of its address. -/
def twiceFunded : Document := .object [
  ("alloc", .object [
    ("0x00000000000000000000000000000000000000aA", .object [("balance", .string "1")]),
    ("0x00000000000000000000000000000000000000aa", .object [("balance", .string "2")])]),
  ("baseFeeEnabled", .bool true),
  ("difficulty", .string "0x1"),
  ("extraData", .string "0x"),
  ("gasLimit", .string "0x1")]

/-- In the genesis with two spellings some account is funded twice. -/
theorem accounts_of_accepted_twice :
    (rawGenesis twiceFunded).errors = []
      ∧ ∃ accounts : Members, twiceFunded.get? "alloc" = some (.object accounts)
        ∧ ¬ (accounts.map fun account => Address.parse account.1).Nodup := by
  have haccepted : (rawGenesis twiceFunded).errors = [] := by decide
  obtain ⟨accounts, halloc, _, _, hnodup⟩ := accounts_of_accepted haccepted
  refine ⟨haccepted, accounts, halloc, fun h => ?_⟩
  injection halloc with halloc
  injection halloc with halloc
  subst halloc
  exact absurd (hnodup.mp h) (by decide)

/-- The two spellings are distinct keys of an accepted genesis, and they are one account. -/
theorem distinct_keys_one_account :
    ¬ ∀ doc accounts, (rawGenesis doc).errors = [] → doc.get? "alloc" = some (.object accounts) →
      ∀ account ∈ accounts, ∀ other ∈ accounts, account.1 ≠ other.1 →
        Address.parse account.1 ≠ Address.parse other.1 := by
  intro h
  exact h twiceFunded _ (by decide) rfl _ List.mem_cons_self _
    (List.mem_cons_of_mem _ List.mem_cons_self) (by decide) (by decide)

end Validation

end ChainGenesis
