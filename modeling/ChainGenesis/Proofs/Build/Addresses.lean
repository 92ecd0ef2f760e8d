import ChainGenesis.Proofs.Build.Combined
import ChainGenesis.Proofs.Json.Accepting

/-!
# Addresses that look like something else

The addresses of the contracts of a proof-of-stake chain go two ways: they are an artifact, as
strings, and they stand for placeholders of template and overlay. Other values that must stay
strings are quoted before they stand for a placeholder. The addresses are not, so an address
that is JSON becomes what it says: `7` is a number in the chain configuration and a string in
the artifact. Nothing sees to it that an address looks like one; those that do are carried
unchanged.
-/

namespace ChainGenesis

/-! ## Texts that are no JSON -/

theorem Grammar.Pieces.length_add_lt {text rest : List Symbol} {pieces : List Piece}
    (h : Grammar.Pieces text pieces rest) : pieces.length + rest.length < text.length := by
  induction h with
  | close => simp
  | stray _ ih => simp only [List.length_cons]; omega
  | plain _ _ _ _ ih => simp only [List.length_cons]; omega
  | escape _ _ ih => simp only [List.length_cons]; omega
  | unit _ _ ih => simp only [List.length_cons]; omega

namespace StringLiteral

theorem length_join {fault : Option Fault} {pieces : List Piece} {found : List (Option Char)}
    (h : join fault pieces = .ok found) : found.length ≤ pieces.length := by
  fun_induction join fault pieces generalizing found with
  | case1 => injection h with h; simp [← h]
  | case2 | case5 | case8 | case9 => exact absurd h (by simp)
  | case6 => exact absurd h (by simp)
  | case3 _ rest ih | case4 _ rest ih | case10 _ rest _ _ ih =>
      obtain ⟨inner, hinner, rfl⟩ := map_eq_ok.mp h
      exact Nat.succ_le_succ (ih hinner)
  | case7 _ _ _ _ rest _ ih =>
      -- a pair is two pieces and one character
      obtain ⟨inner, hinner, rfl⟩ := map_eq_ok.mp h
      exact Nat.succ_le_succ (Nat.le_succ_of_le (ih hinner))

theorem length_of_mapM_id {α : Type} {xs : List (Option α)} {ys : List α}
    (h : xs.mapM id = some ys) : ys.length = xs.length := by
  induction xs generalizing ys with
  | nil =>
      injection h with h
      rw [← h]
      rfl
  | cons x xs ih =>
      rw [List.mapM_cons] at h
      obtain ⟨y, _, h⟩ := Option.bind_eq_some_iff.mp h
      obtain ⟨zs, hzs, h⟩ := Option.bind_eq_some_iff.mp h
      injection h with h
      rw [← h]
      exact congrArg (· + 1) (ih hzs)

/-- No string has more characters than pieces. -/
theorem length_text {literal : StringLiteral} {text : String} (h : literal.text = .ok text) :
    text.toList.length ≤ literal.pieces.length := by
  unfold StringLiteral.text at h
  split at h
  · exact absurd h (by simp)
  · rename_i found hjoin
    split at h
    · rename_i cs hcs
      injection h with h
      rw [← h, String.toList_ofList, length_of_mapM_id hcs]
      exact length_join hjoin
    · exact absurd h (by simp)

end StringLiteral

theorem Document.string_of_ofWritten {levels : Nat} {written : Written} {text : String}
    (h : Document.ofWritten levels written = .ok (.string text)) :
    ∃ literal, written = .string literal ∧ literal.text = .ok text := by
  cases written with
  | string literal =>
      obtain ⟨found, htext, heq⟩ := map_eq_ok.mp h
      injection heq with heq
      exact ⟨literal, rfl, heq ▸ htext⟩
  | number numeral =>
      obtain ⟨_, _, heq⟩ := map_eq_ok.mp h
      exact Document.noConfusion heq
  | array items fault =>
      cases levels with
      | zero => exact absurd h (by simp [Document.ofWritten])
      | succ levels =>
          obtain ⟨_, _, heq⟩ := map_eq_ok.mp h
          exact Document.noConfusion heq
  | object members fault =>
      cases levels with
      | zero => exact absurd h (by simp [Document.ofWritten])
      | succ levels =>
          obtain ⟨_, _, heq⟩ := map_eq_ok.mp h
          exact Document.noConfusion heq
  | null | bool _ | brokenNumber _ | brokenWord _ | missing _ =>
      exact absurd h (by simp [Document.ofWritten])

/-- No text is the JSON text of itself as a string, since that has quotes around it. -/
theorem Document.parse_ne_string (text : String) : Document.parse text ≠ .ok (.string text) := by
  intro h
  obtain ⟨written, hspelled, hread⟩ := Document.read_eq_ok_iff.mp h
  obtain ⟨literal, rfl, htext⟩ := Document.string_of_ofWritten hread
  obtain ⟨hfront, hvalue, _⟩ := Grammar.ofSymbols_eq_iff.mp hspelled
  cases hvalue with
  | string hliteral =>
      obtain ⟨hpieces⟩ := hliteral
      have hchars := StringLiteral.length_text htext
      have hquotes := hpieces.length_add_lt
      have hwhole := hfront.length_le
      rw [Symbol.ofString, List.length_map, List.length_cons] at hwhole
      dsimp only at hchars
      omega

/-- Behind a zero no letter goes on with a number. -/
theorem ofSymbols_hexadecimal (rest : List Symbol) :
    Written.ofSymbols (.char '0' :: .char 'x' :: rest)
      = (.number ⟨false, ['0'], none, none⟩, some .malformed) := by rfl

theorem decode_of_fault {α : Type} (read : Written → Except Fault α) {text : List Symbol}
    {written : Written} {fault : Fault} (h : Written.ofSymbols text = (written, some fault)) :
    ∃ found, Written.decode read text = .error found := by
  unfold Written.decode
  rw [h]
  dsimp only
  cases read written with
  | error found => exact ⟨found, rfl⟩
  | ok value => exact ⟨fault, rfl⟩

/-- An address is no JSON. -/
theorem Document.parse_of_isValid {text : String} (h : Address.isValid text = true) :
    ∃ fault, Document.parse text = .error fault := by
  unfold Address.isValid at h
  split at h
  · rename_i digits heq
    rw [Document.parse, Symbol.ofString, heq]
    exact decode_of_fault _ (ofSymbols_hexadecimal (digits.map .char))
  · exact absurd h Bool.false_ne_true

namespace Placeholder

/-- **A replacement stays the text that it is exactly if it is no JSON.** -/
theorem meaning_eq_string_iff {value : String} :
    meaning value = .string value ↔ ∃ fault, Document.parse value = .error fault := by
  unfold meaning
  cases hparse : Document.parse value with
  | error fault => exact ⟨fun _ => ⟨fault, rfl⟩, fun _ => rfl⟩
  | ok doc =>
      constructor
      · rintro rfl
        exact absurd hparse (Document.parse_ne_string value)
      · rintro ⟨fault, h⟩
        exact absurd h (by simp)

theorem meaning_of_isValid {value : String} (h : Address.isValid value = true) :
    meaning value = .string value :=
  meaning_eq_string_iff.mpr (Document.parse_of_isValid h)

end Placeholder

/-! ## The addresses of a build -/

namespace Build

open Placeholder (meaning)

theorem contractsFor_of_load {fs : FileSystem} {opts : BuildOptions} {contracts : Contracts}
    (hpos : opts.consensus = .pos) (h : Contracts.load fs opts.deployments = .ok contracts) :
    contractsFor fs opts = .ok (some contracts) :=
  (contractsFor_pos_eq_ok_iff hpos).mpr (.inl ⟨contracts, h, rfl⟩)

/-- The addresses of a build for proof of stake are loaded, or they are tokens in their place. -/
theorem contractsFor_of_pos {fs : FileSystem} {opts : BuildOptions} {found : Option Contracts}
    (hpos : opts.consensus = .pos) (h : contractsFor fs opts = .ok found) :
    ∃ contracts, found = some contracts
      ∧ (Contracts.load fs opts.deployments = .ok contracts
        ∨ opts.allowMissingContracts = true ∧ contracts = .placeholders) := by
  rcases (contractsFor_pos_eq_ok_iff hpos).mp h with ⟨contracts, hload, rfl⟩ | ⟨_, hallow, rfl⟩
  · exact ⟨contracts, rfl, .inl hload⟩
  · exact ⟨.placeholders, rfl, .inr ⟨hallow, rfl⟩⟩

def stakingName : List Char :=
  ['S', 'T', 'A', 'K', 'I', 'N', 'G', '_', 'A', 'D', 'D', 'R', 'E', 'S', 'S']

def validatorSetName : List Char :=
  ['V', 'A', 'L', 'I', 'D', 'A', 'T', 'O', 'R', '_', 'S', 'E', 'T', '_', 'A', 'D', 'D', 'R', 'E',
    'S', 'S']

theorem staking_token : Contracts.placeholders.staking
    = String.ofList (Placeholder.marked stakingName) := rfl

theorem validatorSet_token : Contracts.placeholders.validatorSet
    = String.ofList (Placeholder.marked validatorSetName) := rfl

/-- The token of an address becomes what the address means. -/
theorem fill_address (opts : BuildOptions) (alloc : Ledger.Alloc) (contracts : Contracts)
    {address : Contracts → String} (h : address ∈ [Contracts.staking, Contracts.validatorSet]) :
    (Document.string (address .placeholders)).fill (values opts alloc (some contracts))
      = meaning (address contracts) := by
  have hstaking : Named.lookup? "STAKING_ADDRESS" (values opts alloc (some contracts))
      = some contracts.staking := by
    rw [values, Named.lookup?_ofList]
    rfl
  have hset : Named.lookup? "VALIDATOR_SET_ADDRESS" (values opts alloc (some contracts))
      = some contracts.validatorSet := by
    rw [values, Named.lookup?_ofList]
    rfl
  rw [Document.fill]
  rw [List.mem_cons, List.mem_singleton] at h
  rcases h with rfl | rfl
  · rw [staking_token]
    exact Placeholder.fill_marked (by decide) hstaking
  · rw [validatorSet_token]
    exact Placeholder.fill_marked (by decide) hset

/-- A token in the place of an address stays that token. -/
theorem meaning_placeholders {address : Contracts → String}
    (h : address ∈ [Contracts.staking, Contracts.validatorSet]) :
    meaning (address .placeholders) = .string (address .placeholders) := by
  rw [List.mem_cons, List.mem_singleton] at h
  rcases h with rfl | rfl
  · exact Placeholder.meaning_eq_string_iff.mpr ⟨.malformed, rfl⟩
  · exact Placeholder.meaning_eq_string_iff.mpr ⟨.malformed, rfl⟩

/--
**An address is carried unchanged exactly if it is no JSON.** A build for proof of stake has its
addresses from the deployments file, or tokens in their place if it may do without, and they are
an artifact as strings. Wherever template or overlay has the token of an address for a value, at
any depth, the resolved document that goes into the chain configuration has what the address
means. That is the address as a string if the address is no JSON, as no address of an account
is, and something else if it is JSON.
-/
theorem addresses_filled_in {fs : FileSystem} {opts : BuildOptions} {result : Build}
    (hbuild : build fs opts = .ok result) (hpos : opts.consensus = .pos) :
    ∃ contracts alloc template overlay resolvedTemplate resolvedOverlay,
      result.contracts = some contracts
      ∧ result.contractsText = some (contracts.document.canonical .pretty)
      ∧ (Contracts.load fs opts.deployments = .ok contracts
        ∨ opts.allowMissingContracts = true ∧ contracts = .placeholders)
      ∧ fs.loadDocument opts.template = .ok template
      ∧ fs.loadDocument opts.overlay = .ok overlay
      ∧ resolve (values opts alloc (some contracts)) opts.policy.strict template
        = .ok resolvedTemplate
      ∧ resolve (values opts alloc (some contracts)) opts.policy.strict overlay
        = .ok resolvedOverlay
      ∧ result.combined = (combine resolvedTemplate.document resolvedOverlay.document).ensureForks
        opts.environment opts.supportedForks
      ∧ ∀ address ∈ [Contracts.staking, Contracts.validatorSet],
        (∀ path, template.valueAt? path = some (.string (address .placeholders)) →
          resolvedTemplate.document.valueAt? path = some (meaning (address contracts)))
        ∧ (∀ path, overlay.valueAt? path = some (.string (address .placeholders)) →
          resolvedOverlay.document.valueAt? path = some (meaning (address contracts)))
        ∧ (meaning (address contracts) = .string (address contracts)
          ↔ ∃ fault, Document.parse (address contracts) = .error fault)
        ∧ (Address.isValid (address contracts) = true ∨ contracts = .placeholders →
          meaning (address contracts) = .string (address contracts)) := by
  obtain ⟨course⟩ := build_eq_ok_iff.mp hbuild
  obtain ⟨contracts, hcontracts, hsource⟩ := contractsFor_of_pos hpos course.contractsFound
  have htemplate := course.templateFilled
  have hoverlay := course.overlayFilled
  have hcombined := course.combined_eq
  rw [hcontracts] at htemplate hoverlay hcombined
  refine ⟨contracts, course.alloc, course.template, course.overlay, _, _, hcontracts, ?_, hsource,
    course.templateLoaded, course.overlayLoaded, resolve_eq_ok_iff.mpr ⟨htemplate, rfl⟩,
    resolve_eq_ok_iff.mpr ⟨hoverlay, rfl⟩, hcombined, fun address haddress => ?_⟩
  · rw [contractsText, hcontracts]
    rfl
  · have hfill := fill_address opts course.alloc contracts haddress
    refine ⟨fun path hpath => ?_, fun path hpath => ?_, Placeholder.meaning_eq_string_iff, ?_⟩
    · rw [← hfill]
      exact Document.valueAt?_fill _ hpath
    · rw [← hfill]
      exact Document.valueAt?_fill _ hpath
    · rintro (hvalid | rfl)
      · exact Placeholder.meaning_of_isValid hvalid
      · exact meaning_placeholders haddress

/-! ## A number for an address -/

/-- An overlay for proof of stake that states the staking contract. -/
def stakingOverlay : Document := .object [
  ("params", .object [
    ("engine", .object [("ibft", .object [("type", .string "PoS")])]),
    ("staking", .string Contracts.placeholders.staking)])]

/-- The overlay with a number in the place of the token. -/
def stakingFilled : Document := .object [
  ("params", .object [
    ("engine", .object [("ibft", .object [("type", .string "PoS")])]),
    ("staking", .number (.integer 7))])]

/-- Deployments of which one has a number for an address. -/
def numberedContracts : Contracts := ⟨"7", "0x00000000000000000000000000000000000000cc"⟩

def numberedDeployments : Document := .array [
  .array [.string "7"], .array [.string "0x00000000000000000000000000000000000000cc"]]

/-- The files of the smallest build, and two more for proof of stake. -/
def numberedFiles : FileSystem :=
  (smallestFiles.put ["pos.json"] (.file (stakingOverlay.canonical .compact).toUTF8)).put
    ["deployments"] (.file (numberedDeployments.canonical .compact).toUTF8)

def numberedOptions : BuildOptions :=
  { smallestOptions with consensus := .pos, deployments := "deployments" }

def numberedCombined : Document := .object [
  ("genesis", smallestGenesis smallestAlloc.document),
  ("params", .object [
    ("chainID", .number (.integer 18446744073709551615)),
    ("engine", .object [("ibft", .object [("type", .string "PoS")])]),
    ("forks", .object []),
    ("staking", .number (.integer 7))])]

def numbered : Build :=
  { smallest with
    combined := numberedCombined
    chain := withGenesis "/genesis" numberedCombined
    contracts := some numberedContracts }

theorem load_numberedDeployments :
    Contracts.load numberedFiles numberedOptions.deployments = .ok numberedContracts := by
  have hload : numberedFiles.load Contracts.ofWritten numberedOptions.deployments
      = .ok numberedContracts :=
    FileSystem.load_canonical numberedDeployments rfl (by decide) (by decide) rfl
  rw [Contracts.load, hload]
  rfl

theorem load_stakingOverlay :
    numberedFiles.loadDocument numberedOptions.overlay = .ok stakingOverlay :=
  FileSystem.loadDocument_canonical rfl (by decide) (by decide) (by decide)

theorem meaning_seven : meaning "7" = .number (.integer 7) := by
  have hrange : Number.InRange 7 := by decide
  exact Placeholder.meaning_integer hrange

theorem fill_stakingOverlay :
    stakingOverlay.fill (values numberedOptions smallestAlloc numbered.contracts)
      = stakingFilled := by
  have hstaking : (Document.string Contracts.placeholders.staking).fill
      (values numberedOptions smallestAlloc numbered.contracts) = .number (.integer 7) :=
    (fill_address _ _ numberedContracts List.mem_cons_self).trans meaning_seven
  generalize values numberedOptions smallestAlloc numbered.contracts = values at hstaking
  have htype : Placeholder.fill values "PoS" = .string "PoS" :=
    Placeholder.fill_plain values (by decide)
  rw [Document.fill] at hstaking
  simp only [stakingOverlay, Document.fill, Document.fillMembers, htype, hstaking]
  rfl

theorem tokens_stakingOverlay : stakingOverlay.tokens = ["STAKING_ADDRESS"] := by
  have hstaking : Placeholder.names Contracts.placeholders.staking = ["STAKING_ADDRESS"] := by
    rw [staking_token]
    exact Placeholder.names_marked (by decide)
  have htype : Placeholder.names "PoS" = [] := Placeholder.names_plain (by decide)
  simp only [stakingOverlay, Document.tokens, Document.tokensOfMembers, hstaking, htype]
  rfl

theorem combine_numbered :
    combine (smallestTemplate.fill (values numberedOptions smallestAlloc numbered.contracts))
        (stakingOverlay.fill (values numberedOptions smallestAlloc numbered.contracts))
      = combine smallestFilled stakingFilled := by
  rw [fill_smallestTemplate _ _ rfl, fill_stakingOverlay]

theorem findings_numbered : findings numberedFiles numberedOptions.policy numbered.combined
    numbered.genesis = ⟨[], [.noMinGasPrice]⟩ := by rfl

theorem unresolved_numbered :
    smallestTemplate.unresolved (values numberedOptions smallestAlloc numbered.contracts)
      ++ stakingOverlay.unresolved (values numberedOptions smallestAlloc numbered.contracts)
      = [] := by
  rw [Document.unresolved, Document.unresolved, tokens_smallestTemplate, tokens_stakingOverlay]
  rfl

theorem build_numbered : build numberedFiles numberedOptions = .ok numbered :=
  build_eq_ok_iff.mpr ⟨{
    ledger := smallestLedger
    alloc := smallestAlloc
    template := smallestTemplate
    overlay := stakingOverlay
    checked := rfl
    resolved := rfl
    tokenLoaded := load_smallestToken
    tokenChecked := rfl
    ledgerLoaded := load_smallestLedger
    sound := sound_smallestLedger
    rendered := sound_smallestLedger.alloc
    templateLoaded := load_smallestTemplate
    overlayLoaded := load_stakingOverlay
    contractsFound := contractsFor_of_load rfl load_numberedDeployments
    templateFilled := .inl rfl
    overlayFilled := .inl rfl
    combined_eq := by
      rw [combine_numbered]
      rfl
    genesisFound := rfl
    accepted := congrArg Findings.errors findings_numbered
    chain_eq := rfl
    total_eq := rfl
    layout_eq := rfl
    warnings_eq := by
      rw [unresolved_numbered, combine_numbered, findings_numbered]
      rfl }⟩

/-- The number is retyped, and the address is not. -/
theorem addresses_filled_in_numbered :
    build numberedFiles numberedOptions = .ok numbered
      ∧ numberedOptions.consensus = .pos
      ∧ (∃ alloc resolved, resolve (values numberedOptions alloc (some numberedContracts))
          numberedOptions.policy.strict stakingOverlay = .ok resolved
        ∧ resolved.document.valueAt? [.field "params", .field "staking"]
          = some (.number (.integer 7)))
      ∧ meaning numberedContracts.validatorSet = .string numberedContracts.validatorSet := by
  obtain ⟨contracts, alloc, _, overlay, _, resolved, hcontracts, _, _, _, hoverlay, _, hresolved,
    _, haddresses⟩ := addresses_filled_in build_numbered rfl
  obtain rfl : contracts = numberedContracts := by injection hcontracts.symm
  obtain rfl : overlay = stakingOverlay := by injection hoverlay.symm.trans load_stakingOverlay
  obtain ⟨_, hstaking, _, _⟩ := haddresses Contracts.staking List.mem_cons_self
  obtain ⟨_, _, _, hset⟩ :=
    haddresses Contracts.validatorSet (List.mem_cons_of_mem _ List.mem_cons_self)
  refine ⟨build_numbered, rfl, ⟨alloc, resolved, hresolved, ?_⟩, hset (.inl (by decide))⟩
  rw [← meaning_seven]
  exact hstaking _ rfl

/-- **An address can be carried as something else**: the artifact has the string `7`, and the
chain configuration a number. -/
theorem address_retyped :
    build numberedFiles numberedOptions = .ok numbered
      ∧ Contracts.load numberedFiles numberedOptions.deployments = .ok numberedContracts
      ∧ numbered.contractsText = some (numberedContracts.document.canonical .pretty)
      ∧ numberedContracts.document.get? "staking" = some (.string "7")
      ∧ numberedFiles.loadDocument numberedOptions.overlay = .ok stakingOverlay
      ∧ stakingOverlay.at? ["params", "staking"] = some (.string Contracts.placeholders.staking)
      ∧ (stakingOverlay.fill (values numberedOptions smallestAlloc numbered.contracts)).at?
        ["params", "staking"] = some (.number (.integer 7))
      ∧ numbered.combined.at? ["params", "staking"] = some (.number (.integer 7))
      ∧ numbered.chain.at? ["params", "staking"] = some (.number (.integer 7)) := by
  refine ⟨build_numbered, load_numberedDeployments, rfl, rfl, load_stakingOverlay, rfl, ?_, rfl,
    rfl⟩
  rw [fill_stakingOverlay]
  rfl

end Build

end ChainGenesis
