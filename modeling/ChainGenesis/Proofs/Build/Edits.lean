import ChainGenesis.Proofs.Build.Accepted
import ChainGenesis.Proofs.Merge
import ChainGenesis.Proofs.Placeholder.Settled

/-!
# The edits of a build

The combined document of a build is the template with the overlay merged over it, and edited in
three places: the keys of the old layout are taken out, the entries of the engine that the
overlay has are replaced whole, and the upgrades are added where there are none. The edits make
an object wherever they need one and find none, which could lose what stands there. In a build
that succeeds this does not happen to the parameters nor to the engine, because without the type
of the engine the result would not be accepted.
-/

namespace ChainGenesis.Build

open Validation (legacyKeys)

/-! ## What the edits do -/

/-- A document is what merging a template and an overlay makes, but for the edits of a build. -/
structure Edited (env : Environment) (supported : Option (List String))
    (template overlay combined : Document) : Prop where
  /-- Beside the parameters the keys of the old layout are gone, and nothing else is changed. -/
  top : ∀ name, name ≠ "params" → combined.get? name
    = if name ∈ legacyKeys then none else (template.merge overlay).get? name
  paramsKept : (template.merge overlay).HasObject ["params"] ∧ combined.HasObject ["params"]
  /-- Beside engine and upgrades the parameters are not changed. -/
  params : ∀ name, name ≠ "engine" → name ≠ "forks" →
    combined.at? ["params", name] = (template.merge overlay).at? ["params", name]
  /-- Upgrades that are stated stay, and otherwise those of the environment are added. -/
  forksKept : ∀ forks, (template.merge overlay).at? ["params", "forks"] = some (.object forks) →
    combined.at? ["params", "forks"] = some (.object forks)
  forksAdded : ¬ (template.merge overlay).HasObject ["params", "forks"] →
    combined.at? ["params", "forks"] = some (Forks.activations env supported)
  engineKept : (template.merge overlay).HasObject ["params", "engine"]
    ∧ combined.HasObject ["params", "engine"]
  /-- The engine has the entries that merging gives it. -/
  entries : ∀ key, (combined.at? ["params", "engine", key]).isSome
    = ((template.merge overlay).at? ["params", "engine", key]).isSome
  /-- The entries of the overlay are taken as they are, with nothing of the template's. -/
  ofOverlay : ∀ key value, overlay.at? ["params", "engine", key] = some value →
    combined.at? ["params", "engine", key] = some value
  ofTemplate : ∀ key, overlay.at? ["params", "engine", key] = none →
    combined.at? ["params", "engine", key] = template.at? ["params", "engine", key]

/-! ## The engine -/

/-- What the overlay puts into the engine is what it has below it. -/
theorem lookup?_changes {overlay : Document} (h : overlay.Ordered) (path : List String)
    (key : String) :
    Named.lookup? key (((overlay.at? path).bind Document.members?).getD []).reverse
      = overlay.at? (path ++ [key]) := by
  cases hvalue : overlay.at? path with
  | none =>
      rw [Document.at?_append, hvalue]
      rfl
  | some value =>
      have hordered := h.of_at? hvalue
      rw [Document.at?_append, hvalue, Option.bind_some, Option.bind_some, Document.at?_singleton,
        Document.get?]
      cases value with
      | object members => exact Named.lookup?_reverse hordered.1.nodup key
      | null | bool _ | number _ | string _ | array _ => rfl

/-- An entry of the engine is the overlay's, or if it has none the one that was there. -/
theorem at?_withEngineOf_engine {overlay : Document} (h : overlay.Ordered) (root : Members)
    (key : String) :
    (withEngineOf overlay (.object root)).at? ["params", "engine", key]
      = (overlay.at? ["params", "engine", key]).or
        ((Document.object root).at? ["params", "engine", key]) := by
  have hbefore : Named.lookup? key (Document.objectAt (Document.objectAt root "params") "engine")
      = (Document.object root).at? ["params", "engine", key] := by
    rw [Document.lookup?_objectAt, Document.at?_cons, Document.get?_object,
      Document.lookup?_objectAt]
    exact (Document.at?_append (.object root) ["params", "engine"] [key]).symm
  have hnew : Named.lookup? key
      (((overlay.at? ["params", "engine"]).bind Document.members?).getD []).reverse
      = overlay.at? ["params", "engine", key] := lookup?_changes h ["params", "engine"] key
  rw [← hbefore, ← hnew, ← Named.lookup?_putAll]
  show (Document.setBelow root "params" "engine" _).at? _ = _
  rw [Document.at?_cons, Document.get?_setBelow_self, Option.bind_some, Document.at?_cons,
    Document.get?_object, Named.lookup?_put, if_pos rfl, Option.bind_some, Document.at?_singleton,
    Document.get?_object]

/-! ## From merging to the combined document -/

/-- The combined document is an object if merging makes one. -/
theorem isObject_combine (template overlay : Document) (env : Environment)
    (supported : Option (List String)) :
    ((combine template overlay).ensureForks env supported).isObject
      = (template.merge overlay).isObject := by
  rw [combine]
  cases template.merge overlay with
  | object root =>
      rw [withoutLegacyKeys, withEngineOf]
      rcases Document.ensureForks_eq env supported _ with heq | heq <;> rw [heq] <;> rfl
  | null | bool _ | number _ | string _ | array _ => rfl

/-- The parameters that the keys of the old layout are taken from are those of merging. -/
theorem at?_withoutLegacyKeys_params (doc : Document) (path : List String) :
    (withoutLegacyKeys doc).at? ("params" :: path) = doc.at? ("params" :: path) := by
  refine Document.at?_congr ?_ path
  rw [get?_withoutLegacyKeys, if_neg (by decide)]

/-- An entry of the engine of a combined document is the overlay's, or else the one that merging
made. -/
theorem at?_combine_engine {template overlay : Document} (hoverlay : overlay.Ordered)
    (hmerged : (template.merge overlay).isObject = true) (env : Environment)
    (supported : Option (List String)) (key : String) :
    ((combine template overlay).ensureForks env supported).at? ["params", "engine", key]
      = (overlay.at? ["params", "engine", key]).or
        ((template.merge overlay).at? ["params", "engine", key]) := by
  obtain ⟨root, hroot⟩ := Document.isObject_iff.mp hmerged
  rw [Document.at?_ensureForks _ _ _ _ (by decide), combine, hroot,
    ← at?_withoutLegacyKeys_params (.object root)]
  exact at?_withEngineOf_engine hoverlay _ key

/-- The upgrades of a combined document are those that merging made, or the environment's. -/
theorem at?_combine_forks (template overlay : Document)
    (hmerged : (template.merge overlay).isObject = true) (env : Environment)
    (supported : Option (List String)) :
    (∀ forks, (template.merge overlay).at? ["params", "forks"] = some (.object forks) →
        ((combine template overlay).ensureForks env supported).at? ["params", "forks"]
          = some (.object forks))
      ∧ (¬ (template.merge overlay).HasObject ["params", "forks"] →
        ((combine template overlay).ensureForks env supported).at? ["params", "forks"]
          = some (Forks.activations env supported)) := by
  have hforks : (combine template overlay).at? ["params", "forks"]
      = (template.merge overlay).at? ["params", "forks"] := by
    rw [combine, at?_withEngineOf _ _ _ (by decide), at?_withoutLegacyKeys_params]
  obtain ⟨root, hroot⟩ := Document.isObject_iff.mp hmerged
  obtain ⟨edited, hedited⟩ : ∃ edited, combine template overlay = .object edited := by
    rw [combine, hroot]
    exact ⟨_, rfl⟩
  obtain ⟨hkept, hadded⟩ := Document.at?_ensureForks_forks env supported edited
  rw [hedited] at hforks ⊢
  constructor
  · intro forks h
    rw [hkept ⟨forks, hforks.trans h⟩, hforks, h]
  · intro hnone
    refine hadded ?_
    rintro ⟨forks, h⟩
    exact hnone ⟨forks, hforks.symm.trans h⟩

/-- **A combined document whose engine has an entry is what merging made, but for the edits.** -/
theorem edited_combine {template overlay : Document} (hoverlay : overlay.Ordered)
    (env : Environment) (supported : Option (List String)) {key : String} {value : Document}
    (hentry : ((combine template overlay).ensureForks env supported).at? ["params", "engine", key]
      = some value) :
    Edited env supported template overlay
      ((combine template overlay).ensureForks env supported) := by
  have hmerged : (template.merge overlay).isObject = true := by
    obtain ⟨child, hchild, _⟩ := Option.bind_eq_some_iff.mp hentry
    obtain ⟨_, hobject, _⟩ := Document.get?_eq_some hchild
    rw [← isObject_combine template overlay env supported, hobject]
    rfl
  have hengine := at?_combine_engine hoverlay hmerged env supported
  obtain ⟨hforks, hadded⟩ := at?_combine_forks template overlay hmerged env supported
  -- the entry is the overlay's or was merged, and either way merging has an engine object
  have hbefore : (template.merge overlay).HasObject ["params", "engine"] := by
    have hfrom := hentry
    rw [hengine, Option.or_eq_some_iff] at hfrom
    rcases hfrom with hfrom | ⟨_, hfrom⟩
    · exact Document.HasObject.merge (.of_at? hfrom)
    · exact .of_at? hfrom
  have hafter : ((combine template overlay).ensureForks env supported).HasObject
      ["params", "engine"] := .of_at? hentry
  obtain ⟨merged, hmergedEngine⟩ := hbefore
  obtain ⟨combined, hcombinedEngine⟩ := hafter
  exact {
    top := fun name hname => by
      rw [Document.get?_ensureForks _ _ _ hname, combine, get?_withEngineOf _ _ hname,
        get?_withoutLegacyKeys]
    paramsKept := ⟨.of_at? hmergedEngine, .of_at? hcombinedEngine⟩
    params := fun name hengine hforks => at?_combine _ _ (.params hengine hforks) _ _
    forksKept := hforks
    forksAdded := hadded
    engineKept := ⟨⟨merged, hmergedEngine⟩, ⟨combined, hcombinedEngine⟩⟩
    entries := fun key => by
      rw [hengine]
      cases hnew : overlay.at? ["params", "engine", key] with
      | none => rw [Option.none_or]
      | some value =>
          rw [Document.at?_merge_of_some template hnew]
          cases template.at? ["params", "engine", key] <;> rfl
    ofOverlay := fun key value hnew => by
      rw [hengine, hnew, Option.some_or]
    ofTemplate := fun key hnone => by
      rw [hengine, hnone, Option.none_or]
      exact Document.at?_merge_of_object hmergedEngine hnone }

/-! ## Order -/

theorem ordered_withoutLegacyKeys {doc : Document} (h : doc.Ordered) :
    (withoutLegacyKeys doc).Ordered := by
  cases doc with
  | object root =>
      have hremove : ∀ (keys : List String) (root : Members), (Document.object root).Ordered →
          (Document.object
            (keys.foldl (fun root key => Named.remove key root) root)).Ordered := by
        intro keys
        induction keys with
        | nil => exact fun _ h => h
        | cons key keys ih =>
            refine fun root h => ih _ ⟨h.1.remove key, ?_⟩
            refine Document.orderedMembers_iff.mpr fun member hmem => ?_
            exact Document.orderedMembers_iff.mp h.2 member (List.mem_of_mem_filter hmem)
      exact hremove legacyKeys root h
  | null | bool _ | number _ | string _ | array _ => exact h

theorem ordered_withEngineOf {overlay doc : Document} (ho : overlay.Ordered) (h : doc.Ordered) :
    (withEngineOf overlay doc).Ordered := by
  cases doc with
  | object root =>
      have hputAll : ∀ (changes engine : Members), (∀ change ∈ changes, change.2.Ordered) →
          (Document.object engine).Ordered →
          (Document.object (Named.putAll engine changes)).Ordered := by
        intro changes
        induction changes with
        | nil => exact fun _ _ h => h
        | cons change changes ih =>
            intro engine hchanges h
            rw [List.forall_mem_cons] at hchanges
            exact ih _ hchanges.2 (h.put change.1 hchanges.1)
      refine Document.Ordered.setBelow h "params" "engine" (hputAll _ _ ?_ ?_)
      · cases hvalue : overlay.at? ["params", "engine"] with
        | none => exact List.forall_mem_nil _
        | some value =>
            have hordered := ho.of_at? hvalue
            cases value with
            | object members => exact Document.orderedMembers_iff.mp hordered.2
            | null | bool _ | number _ | string _ | array _ => exact List.forall_mem_nil _
      · exact (h.objectAt "params").objectAt "engine"
  | null | bool _ | number _ | string _ | array _ => exact h

theorem ordered_combine {template overlay : Document} (ht : template.Ordered)
    (ho : overlay.Ordered) (env : Environment) (supported : Option (List String)) :
    ((combine template overlay).ensureForks env supported).Ordered :=
  Document.ordered_ensureForks env supported
    (ordered_withEngineOf ho (ordered_withoutLegacyKeys (ht.merge ho)))

/-! ## Nothing else is changed -/

/-- The edits leave nothing open: there is one document that is what merging made but for
them. -/
theorem Edited.unique {env : Environment} {supported : Option (List String)}
    {template overlay combined other : Document}
    (h : Edited env supported template overlay combined)
    (h' : Edited env supported template overlay other) (hordered : combined.Ordered)
    (hordered' : other.Ordered) : combined = other := by
  -- from the inside out, each object has the same members as the other's
  have hsameEngine : combined.at? ["params", "engine"] = other.at? ["params", "engine"] := by
    refine hordered.at?_ext hordered' h.engineKept.2 h'.engineKept.2 fun key => ?_
    show combined.at? ["params", "engine", key] = other.at? ["params", "engine", key]
    cases hnew : overlay.at? ["params", "engine", key] with
    | none => rw [h.ofTemplate key hnew, h'.ofTemplate key hnew]
    | some value => rw [h.ofOverlay key value hnew, h'.ofOverlay key value hnew]
  have hsameParams : combined.at? ["params"] = other.at? ["params"] := by
    refine hordered.at?_ext hordered' h.paramsKept.2 h'.paramsKept.2 fun name => ?_
    show combined.at? ["params", name] = other.at? ["params", name]
    by_cases hname : name = "engine"
    · rw [hname, hsameEngine]
    by_cases hname' : name = "forks"
    · rw [hname']
      by_cases hforks : (template.merge overlay).HasObject ["params", "forks"]
      · obtain ⟨forks, hforks⟩ := hforks
        rw [h.forksKept forks hforks, h'.forksKept forks hforks]
      · rw [h.forksAdded hforks, h'.forksAdded hforks]
    rw [h.params name hname hname', h'.params name hname hname']
  obtain ⟨_, hparams⟩ := h.paramsKept.2
  obtain ⟨_, hparams'⟩ := h'.paramsKept.2
  have hsame : combined.at? [] = other.at? [] := by
    refine hordered.at?_ext hordered' (.of_at? hparams) (.of_at? hparams') fun name => ?_
    show combined.at? [name] = other.at? [name]
    by_cases hname : name = "params"
    · rw [hname, hsameParams]
    · rw [Document.at?_singleton, Document.at?_singleton, h.top name hname, h'.top name hname]
  exact Option.some.inj hsame

section

variable {fs : FileSystem} {opts : BuildOptions} {result : Build}

/-- The layers of a build list their members in order. -/
theorem Course.ordered_layers (course : Course fs opts result) :
    (course.template.fill (values opts course.alloc result.contracts)).Ordered
      ∧ (course.overlay.fill (values opts course.alloc result.contracts)).Ordered :=
  ⟨(FileSystem.ordered_of_loadDocument course.templateLoaded).fill _,
    (FileSystem.ordered_of_loadDocument course.overlayLoaded).fill _⟩

theorem Course.ordered_combined (course : Course fs opts result) : result.combined.Ordered := by
  obtain ⟨htemplate, hoverlay⟩ := course.ordered_layers
  rw [course.combined_eq]
  exact ordered_combine htemplate hoverlay _ _

theorem Course.edited (course : Course fs opts result) :
    Edited opts.environment opts.supportedForks
      (course.template.fill (values opts course.alloc result.contracts))
      (course.overlay.fill (values opts course.alloc result.contracts)) result.combined := by
  -- what is accepted has an engine with a type, so there is an entry for the engine
  obtain ⟨_, htype, _⟩ := course.engine
  obtain ⟨_, hentry⟩ := @Document.HasObject.of_at? _ _ ["params", "engine", "ibft"] _ htype
  rw [course.combined_eq] at hentry ⊢
  exact edited_combine course.ordered_layers.2 _ _ hentry

/--
**A build merges its layers, makes its edits and changes nothing else.** The combined document is
what merging the filled-in overlay over the filled-in template makes, but for the keys of the old
layout, the entries of the engine, which are the overlay's wherever it has them and the
template's elsewhere, and the upgrades. It is the only document of which this is true.
-/
theorem edited_of_build (hbuild : build fs opts = .ok result) :
    ∃ alloc template overlay resolvedTemplate resolvedOverlay,
      loadAlloc fs opts.allocations = .ok alloc
      ∧ fs.loadDocument opts.template = .ok template
      ∧ fs.loadDocument opts.overlay = .ok overlay
      ∧ resolve (values opts alloc result.contracts) opts.policy.strict template
        = .ok resolvedTemplate
      ∧ resolve (values opts alloc result.contracts) opts.policy.strict overlay
        = .ok resolvedOverlay
      ∧ Edited opts.environment opts.supportedForks resolvedTemplate.document
        resolvedOverlay.document result.combined
      ∧ result.combined.Ordered
      ∧ ∀ other, other.Ordered → Edited opts.environment opts.supportedForks
        resolvedTemplate.document resolvedOverlay.document other → other = result.combined := by
  obtain ⟨course⟩ := build_eq_ok_iff.mp hbuild
  have hordered := course.ordered_combined
  exact ⟨course.alloc, course.template, course.overlay, _, _,
    loadAlloc_eq_ok_iff.mpr ⟨course.ledger, course.ledgerLoaded, course.sound, course.rendered⟩,
    course.templateLoaded, course.overlayLoaded,
    resolve_eq_ok_iff.mpr ⟨course.templateFilled, rfl⟩,
    resolve_eq_ok_iff.mpr ⟨course.overlayFilled, rfl⟩, course.edited, hordered,
    fun other hother h => h.unique course.edited hother hordered⟩

end

/-! A template with a key of the old layout, an engine with more in it than the overlay's, and
upgrades of its own. -/

def layeredTemplate : Document := .object [
  ("consensus", .object [("type", .string "ibft")]),
  ("genesis", smallestGenesis (.object [])),
  ("params", .object [
    ("chainID", .number (.integer 7)),
    ("engine", .object [
      ("dev", .object []),
      ("ibft", .object [("stale", .bool true), ("type", .string "PoS")])]),
    ("forks", .object [("london", Forks.atGenesis)])])]

def layeredFiles : FileSystem :=
  { nodes := [
      (["template"], .file (layeredTemplate.canonical .compact).toUTF8),
      (["poa.json"], .file (smallestOverlay.canonical .compact).toUTF8),
      (["token"], .file (smallestTokenFile.canonical .compact).toUTF8),
      (["ledger"], .file (smallestLedgerFile.canonical .compact).toUTF8)]
    workingDirectory := [] }

def layeredCombined : Document := .object [
  ("genesis", smallestGenesis (.object [])),
  ("params", .object [
    ("chainID", .number (.integer 7)),
    ("engine", .object [("dev", .object []), ("ibft", .object [("type", .string "PoA")])]),
    ("forks", .object [("london", Forks.atGenesis)])])]

def layered : Build :=
  { smallest with
    combined := layeredCombined
    chain := withGenesis "/genesis" layeredCombined
    genesis := smallestGenesis (.object []) }

theorem load_layeredTemplate :
    layeredFiles.loadDocument smallestOptions.template = .ok layeredTemplate :=
  FileSystem.loadDocument_canonical rfl (by decide) (by decide) (by decide)

theorem load_layeredOverlay :
    layeredFiles.loadDocument smallestOptions.overlay = .ok smallestOverlay :=
  FileSystem.loadDocument_canonical rfl (by decide) (by decide) (by decide)

theorem tokens_layeredTemplate : layeredTemplate.tokens = [] := by
  have hplain : ∀ text ∈ ["ibft", "0x1", "0x", "PoS"], Placeholder.names text = [] :=
    fun text hmem => Placeholder.names_plain (by revert text; decide)
  simp only [List.forall_mem_cons] at hplain
  obtain ⟨hibft, hone, hdata, hpos, _⟩ := hplain
  simp only [layeredTemplate, smallestGenesis, Forks.atGenesis, Document.tokens,
    Document.tokensOfMembers, hibft, hone, hdata, hpos]
  rfl

theorem fill_layeredTemplate (values : Placeholder.Values) :
    layeredTemplate.fill values = layeredTemplate :=
  Document.fill_of_settled values (Document.settled_of_tokens tokens_layeredTemplate)

theorem combine_layered (values : Placeholder.Values) :
    combine (layeredTemplate.fill values) (smallestOverlay.fill values)
      = combine layeredTemplate smallestOverlay := by
  rw [fill_layeredTemplate, fill_smallestOverlay]

theorem findings_layered : findings layeredFiles smallestOptions.policy layered.combined
    layered.genesis = ⟨[], [.noMinGasPrice]⟩ := by rfl

theorem build_layered : build layeredFiles smallestOptions = .ok layered :=
  build_eq_ok_iff.mpr ⟨{
    ledger := smallestLedger
    alloc := smallestAlloc
    template := layeredTemplate
    overlay := smallestOverlay
    checked := rfl
    resolved := rfl
    tokenLoaded := FileSystem.load_canonical smallestTokenFile rfl (by decide) (by decide) rfl
    tokenChecked := rfl
    ledgerLoaded := FileSystem.load_canonical smallestLedgerFile rfl (by decide) (by decide) rfl
    sound := sound_smallestLedger
    rendered := sound_smallestLedger.alloc
    templateLoaded := load_layeredTemplate
    overlayLoaded := load_layeredOverlay
    contractsFound := rfl
    templateFilled := .inl rfl
    overlayFilled := .inl rfl
    combined_eq := by
      rw [combine_layered]
      rfl
    genesisFound := rfl
    accepted := congrArg Findings.errors findings_layered
    chain_eq := rfl
    total_eq := rfl
    layout_eq := rfl
    warnings_eq := by
      rw [Document.unresolved, Document.unresolved, tokens_layeredTemplate,
        tokens_smallestOverlay, combine_layered, findings_layered]
      rfl }⟩

/-- In the layered build nothing is left of the old layout nor of the template's engine entry,
and the entries and the upgrades that only the template has are there. -/
theorem edited_of_build_layered :
    layered.combined.get? "consensus" = none
      ∧ layered.combined.at? ["params", "engine", "ibft"]
        = some (.object [("type", .string "PoA")])
      ∧ layered.combined.at? ["params", "engine", "dev"] = some (.object [])
      ∧ layered.combined.at? ["params", "forks"]
        = some (.object [("london", Forks.atGenesis)]) := by
  obtain ⟨_, _, _, _, _, _, htemplate, hoverlay, hresolved, hresolved', hedited, _⟩ :=
    edited_of_build build_layered
  injection htemplate.symm.trans load_layeredTemplate with htemplate
  injection hoverlay.symm.trans load_layeredOverlay with hoverlay
  subst htemplate hoverlay
  obtain ⟨_, rfl⟩ := resolve_eq_ok_iff.mp hresolved
  obtain ⟨_, rfl⟩ := resolve_eq_ok_iff.mp hresolved'
  rw [fill_layeredTemplate, fill_smallestOverlay] at hedited
  refine ⟨?_, hedited.ofOverlay "ibft" _ rfl, hedited.ofTemplate "dev" rfl,
    hedited.forksKept _ rfl⟩
  rw [hedited.top "consensus" (by decide), if_pos (by decide)]

end ChainGenesis.Build
