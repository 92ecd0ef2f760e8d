import ChainGenesis.Proofs.Decimal
import ChainGenesis.Proofs.Ledger.Entries
import ChainGenesis.Proofs.Ledger.Issues

/-!
# Where the issues of a ledger are shown

The text of a path does not say where a name in it ends, and a bucket may have any name: an empty
one, one with points and brackets, or one that looks like an operator. Within a ledger this does no
harm. What buckets, operators and the deployer are shown as begins in three different ways, a name
or a position is all that is different between two of one kind, and an address is told from an
amount by how its text ends. So every text that an issue shows leads to one field of one entry.
-/

namespace ChainGenesis

namespace Ledger

/-- The texts under which a field of the entries is shown, in the order of the entries. -/
def fieldTexts (ledger : Ledger) (field : String) : List String :=
  ledger.entries.map fun entry => (entry.1.field field).text

/-- The texts under which the fields of the header and the buckets as a whole are shown. -/
def headerTexts : List String := ["meta.unit", "meta.decimals", "meta.token", "buckets"]

/-- A text shows a field of the entry at a position, and of no other entry. -/
def ShownOnlyAt (ledger : Ledger) (field text : String) (i : Nat) : Prop :=
  ∀ j, (ledger.fieldTexts field)[j]? = some text ↔ j = i

/-! ## Entries -/

/-- The first letters of a text, of which there are enough to tell the kinds of entries from one
another and from the header. -/
def opening (text : String) : List Char := text.toList.take 8

theorem opening_append {front : String} (h : 8 ≤ front.toList.length) (back : String) :
    opening (front ++ back) = opening front := by
  rw [opening, String.toList_append, List.take_append_of_le_length h]
  rfl

/-- An entry is shown as a bucket, an operator or the deployer, and what stands behind its text
does not hide which. -/
theorem opening_of_mem_entries {ledger : Ledger} {entry : DocPath × Allocation}
    (h : entry ∈ ledger.entries) (back : String) :
    opening (entry.1.text ++ back)
      ∈ [opening "buckets.", opening "operators[", opening "deployer"] := by
  have htext := List.mem_map_of_mem (f := fun entry : DocPath × Allocation => entry.1.text) h
  rw [map_text_entries, List.mem_append, List.mem_append] at htext
  rcases htext with (hbucket | hoperator) | hdeployer
  · obtain ⟨bucket, _, heq⟩ := List.mem_map.mp hbucket
    rw [← heq, String.append_assoc, opening_append (by decide)]
    exact List.mem_cons_self
  · obtain ⟨n, _, heq⟩ := List.mem_map.mp hoperator
    rw [← heq, String.append_assoc, opening_append (by decide)]
    exact List.mem_cons_of_mem _ List.mem_cons_self
  · rw [List.mem_singleton.mp hdeployer, opening_append (by decide)]
    exact List.mem_cons_of_mem _ (List.mem_cons_of_mem _ List.mem_cons_self)

/-- **No two entries are shown alike,** whatever the names of the buckets hold. -/
theorem nodup_map_text_entries {ledger : Ledger} (h : ledger.buckets.Ordered) :
    (ledger.entries.map fun entry => entry.1.text).Nodup := by
  have hbuckets : (ledger.buckets.map fun bucket => "buckets." ++ bucket.1).Nodup := by
    rw [List.Nodup, List.pairwise_map]
    exact h.imp fun hlt heq => String.ne_of_lt hlt ((String.append_right_inj _).mp heq)
  have hoperators : ((List.range' 0 ledger.operators.length).map fun k =>
      "operators[" ++ (Nat.repr k ++ "]")).Nodup := by
    refine (List.nodup_range').map fun n m heq => ?_
    have hrepr := (String.append_left_inj _).mp ((String.append_right_inj _).mp heq)
    rw [← String.toList_inj, Nat.toList_repr, Nat.toList_repr] at hrepr
    exact toDigits_inj hrepr
  -- the kinds of entries are told apart by how their texts begin
  have hbucket : ∀ {text}, text ∈ ledger.buckets.map (fun bucket => "buckets." ++ bucket.1) →
      opening text = opening "buckets." := by
    intro text hmem
    obtain ⟨bucket, _, rfl⟩ := List.mem_map.mp hmem
    exact opening_append (by decide) _
  have hoperator : ∀ {text}, text ∈ (List.range' 0 ledger.operators.length).map
      (fun k => "operators[" ++ (Nat.repr k ++ "]")) → opening text = opening "operators[" := by
    intro text hmem
    obtain ⟨n, _, rfl⟩ := List.mem_map.mp hmem
    exact opening_append (by decide) _
  rw [map_text_entries, List.nodup_append, List.nodup_append]
  refine ⟨⟨hbuckets, hoperators, fun text htext other hother heq => ?_⟩,
    List.nodup_singleton _, fun text htext other hother heq => ?_⟩
  · have hopening := congrArg opening heq
    rw [hbucket htext, hoperator hother] at hopening
    exact absurd hopening (by decide)
  · rw [List.mem_singleton.mp hother] at heq
    have hopening := congrArg opening heq
    rcases List.mem_append.mp htext with htext | htext
    · rw [hbucket htext] at hopening
      exact absurd hopening (by decide)
    · rw [hoperator htext] at hopening
      exact absurd hopening (by decide)

/-! ## Fields -/

theorem fieldTexts_eq (ledger : Ledger) (field : String) :
    ledger.fieldTexts field
      = (ledger.entries.map fun entry => entry.1.text).map (· ++ ("." ++ field)) := by
  rw [fieldTexts, List.map_map]
  exact List.map_congr_left fun entry hmem => DocPath.text_field (ne_root_of_mem_entries hmem) field

/-- One field is shown differently for each entry. -/
theorem nodup_fieldTexts {ledger : Ledger} (h : ledger.buckets.Ordered) (field : String) :
    (ledger.fieldTexts field).Nodup := by
  rw [fieldTexts_eq]
  exact (nodup_map_text_entries h).map fun _ _ => (String.append_left_inj _).mp

theorem mem_fieldTexts {ledger : Ledger} {field text : String}
    (h : text ∈ ledger.fieldTexts field) :
    ∃ entry ∈ ledger.entries, text = entry.1.text ++ ("." ++ field) := by
  rw [fieldTexts_eq] at h
  obtain ⟨front, hfront, rfl⟩ := List.mem_map.mp h
  obtain ⟨entry, hentry, rfl⟩ := List.mem_map.mp hfront
  exact ⟨entry, hentry, rfl⟩

/-- The header is shown like no entry. -/
theorem ne_of_mem_headerTexts {ledger : Ledger} {header field text : String}
    (hheader : header ∈ headerTexts) (htext : text ∈ ledger.fieldTexts field) : header ≠ text := by
  rintro rfl
  obtain ⟨entry, hentry, rfl⟩ := mem_fieldTexts htext
  have hopenings : ∀ header ∈ headerTexts,
      opening header ∉ [opening "buckets.", opening "operators[", opening "deployer"] := by decide
  exact hopenings _ hheader (opening_of_mem_entries hentry _)

/-- An address is told from an amount by the last letter. -/
theorem address_ne_amount {ledger : Ledger} {text other : String}
    (htext : text ∈ ledger.fieldTexts "address") (hother : other ∈ ledger.fieldTexts "amount") :
    text ≠ other := by
  rintro rfl
  obtain ⟨entry, _, haddress⟩ := mem_fieldTexts htext
  obtain ⟨entry', _, hamount⟩ := mem_fieldTexts hother
  have hlast := congrArg (fun text => text.toList.getLast?) (haddress.symm.trans hamount)
  simp only [String.toList_append (s := DocPath.text _)] at hlast
  rw [List.getLast?_append_of_ne_nil _ (by decide), List.getLast?_append_of_ne_nil _ (by decide)]
    at hlast
  exact absurd hlast (by decide)

/-- **All fields of a ledger are shown differently.** -/
theorem nodup_texts {ledger : Ledger} (h : ledger.buckets.Ordered) :
    (headerTexts ++ ledger.fieldTexts "address" ++ ledger.fieldTexts "amount").Nodup := by
  rw [List.nodup_append, List.nodup_append]
  refine ⟨⟨by decide, nodup_fieldTexts h _, fun _ hheader _ => ne_of_mem_headerTexts hheader⟩,
    nodup_fieldTexts h _, fun text htext other hother => ?_⟩
  rcases List.mem_append.mp htext with hheader | haddress
  · exact ne_of_mem_headerTexts hheader hother
  · exact address_ne_amount haddress hother

theorem shownOnlyAt {ledger : Ledger} (h : ledger.buckets.Ordered) (field : String) {i : Nat}
    {entry : DocPath × Allocation} (hentry : ledger.entries[i]? = some entry) :
    ledger.ShownOnlyAt field (entry.1.field field).text i := by
  have hi : (ledger.fieldTexts field)[i]? = some (entry.1.field field).text := by
    rw [fieldTexts, List.getElem?_map, hentry]
    rfl
  obtain ⟨hlt, _⟩ := List.getElem?_eq_some_iff.mp hi
  intro j
  rw [← hi, eq_comm, List.getElem?_inj hlt (nodup_fieldTexts h field), eq_comm]

/-! ## Issues -/

theorem mem_issuesAt {places : List Place} {issue : Issue} (h : issue ∈ issuesAt places) :
    (issue.path, some issue.problem) ∈ places := by
  obtain ⟨⟨path, problem⟩, hplace, hissue⟩ := List.mem_filterMap.mp h
  obtain ⟨problem, rfl, rfl⟩ := Option.map_eq_some_iff.mp hissue
  exact hplace

theorem mem_withEarlier {entries earlier : List (DocPath × Allocation)}
    {entry : DocPath × Allocation} (h : (earlier, entry) ∈ withEarlier entries) :
    ∃ i, entries[i]? = some entry ∧ earlier = entries.take i := by
  obtain ⟨⟨other, i⟩, hmem, heq⟩ := List.mem_map.mp h
  injection heq with hearlier hentry
  subst hearlier hentry
  exact ⟨i, List.mem_zipIdx_iff_getElem?.mp hmem, rfl⟩

/-- What is wrong in the header is shown there, and is not about an account. -/
theorem of_mem_headerPlaces {opts : VerifyOptions} {ledger : Ledger} {issue : Issue}
    (h : (issue.path, some issue.problem) ∈ headerPlaces opts ledger) :
    issue.pathText ∈ headerTexts
      ∧ ∀ first account, issue.problem ≠ .addressTaken first account := by
  constructor
  · have hpath := List.mem_map_of_mem (f := Prod.fst) h
    have hpaths : (headerPlaces opts ledger).map Prod.fst = [headerPath "unit",
        headerPath "decimals", headerPath "token", DocPath.root.field "buckets"] := rfl
    have hshown : ∀ path ∈ (headerPlaces opts ledger).map Prod.fst,
        (if path = [] then "" else path.text) ∈ headerTexts := by
      rw [hpaths]
      decide
    exact hshown _ hpath
  · rintro first account hproblem
    rw [hproblem] at h
    simp [headerPlaces] at h

theorem amountProblem?_ne_taken {amount : String} {first : DocPath} {account : Address} :
    amountProblem? amount ≠ some (.addressTaken first account) := by
  unfold amountProblem?
  split
  · simp
  · split <;> simp

theorem pathText_field {issue : Issue} {path : DocPath} {field : String}
    (h : issue.path = path.field field) : issue.pathText = (path.field field).text := by
  rw [Issue.pathText, h, if_neg]
  exact fun hnil => absurd (List.append_eq_nil_iff.mp hnil).2 (List.cons_ne_nil _ _)

/-- Where an issue of a ledger is: in the header, or in the address or the amount of an entry. -/
theorem place_of_mem_issues {opts : VerifyOptions} {ledger : Ledger} {issue : Issue}
    (h : issue ∈ (ledger.verify opts).issues) :
    (issue.path, some issue.problem) ∈ headerPlaces opts ledger
      ∨ ∃ i entry, ledger.entries[i]? = some entry
        ∧ ((addressProblem? opts (ledger.entries.take i) entry.2 = some issue.problem
            ∧ issue.pathText = (entry.1.field "address").text)
          ∨ (amountProblem? entry.2.amount = some issue.problem
            ∧ issue.pathText = (entry.1.field "amount").text)) := by
  have hissues : (ledger.verify opts).issues
      = issuesAt (headerPlaces opts ledger) ++ issuesAt (entriesPlaces opts ledger.entries) := by
    rw [← checkHeader_eq]
    exact congrArg (checkHeader opts ledger ++ ·)
      (checkEntries_eq (takenBy_nil opts) ledger.entries).1.symm
  rw [hissues] at h
  refine (List.mem_append.mp h).imp mem_issuesAt fun hentries => ?_
  obtain ⟨⟨earlier, entry⟩, hentry, hplace⟩ := List.mem_flatMap.mp (mem_issuesAt hentries)
  obtain ⟨i, hi, rfl⟩ := mem_withEarlier hentry
  refine ⟨i, entry, hi, ?_⟩
  rcases List.mem_cons.mp hplace with haddress | hamount
  · injection haddress with hpath hproblem
    exact .inl ⟨hproblem.symm, pathText_field hpath⟩
  · injection List.mem_singleton.mp hamount with hpath hproblem
    exact .inr ⟨hproblem.symm, pathText_field hpath⟩

/-- The account that an address is refused for belongs to an entry whose address was accepted. -/
theorem holder_of_taken {opts : VerifyOptions} {ledger : Ledger} {issue : Issue} {first : DocPath}
    {account : Address} (h : issue ∈ (ledger.verify opts).issues)
    (hproblem : issue.problem = .addressTaken first account) :
    ∃ i entry, ledger.entries[i]? = some entry
      ∧ addressProblem? opts (ledger.entries.take i) entry.2 = none
      ∧ entry.2.account = account ∧ first = entry.1.field "address" := by
  rcases place_of_mem_issues h with hheader | ⟨i, entry, _, ⟨haddress, _⟩ | ⟨hamount, _⟩⟩
  · exact absurd hproblem ((of_mem_headerPlaces hheader).2 _ _)
  · rw [hproblem] at haddress
    obtain ⟨_, _, front, holder, back, hearlier, haccepted, haccount, hfirst⟩ :=
      addressProblem?_eq_taken_iff.mp haddress
    have hsplit : ledger.entries = front ++ holder :: (back ++ ledger.entries.drop i) := by
      rw [← List.cons_append, ← List.append_assoc, ← hearlier, List.take_append_drop]
    have htake : ledger.entries.take front.length = front := by rw [hsplit, List.take_left]
    have hholder : ledger.entries[front.length]? = some holder := by
      rw [hsplit, List.getElem?_append_right (Nat.le_refl _), Nat.sub_self]
      rfl
    exact ⟨front.length, holder, hholder, by rwa [htake], haccount, hfirst⟩
  · exact absurd (hproblem ▸ hamount) amountProblem?_ne_taken

/--
**Every text that an issue shows leads to one field.** All fields of a ledger are shown differently:
those of the header, and the address and the amount of every entry, whatever the buckets are named.
So an issue that is not shown in the header is shown at an address or an amount, of one entry only,
and that is the entry that is at fault. An issue about an account that is taken quotes the address
that has it, and this again shows one entry only, whose address was accepted.
-/
theorem issues_located (words : Wording) (opts : VerifyOptions) {ledger : Ledger}
    (h : ledger.buckets.Ordered) :
    (headerTexts ++ ledger.fieldTexts "address" ++ ledger.fieldTexts "amount").Nodup
    ∧ ∀ issue ∈ (ledger.verify opts).issues,
      (issue.pathText ∈ headerTexts
        ∨ ∃ i entry, ledger.entries[i]? = some entry
          ∧ ((addressProblem? opts (ledger.entries.take i) entry.2 = some issue.problem
              ∧ ledger.ShownOnlyAt "address" issue.pathText i)
            ∨ (amountProblem? entry.2.amount = some issue.problem
              ∧ ledger.ShownOnlyAt "amount" issue.pathText i)))
      ∧ ∀ first account, issue.problem = .addressTaken first account →
        issue.message words = "duplicates " ++ first.text ++ " (" ++ account.text ++ ")"
        ∧ ∃ i entry, ledger.entries[i]? = some entry
          ∧ addressProblem? opts (ledger.entries.take i) entry.2 = none
          ∧ entry.2.account = account
          ∧ ledger.ShownOnlyAt "address" first.text i := by
  refine ⟨nodup_texts h, fun issue hissue => ⟨?_, fun first account hproblem => ⟨?_, ?_⟩⟩⟩
  · refine (place_of_mem_issues hissue).imp (fun hheader => (of_mem_headerPlaces hheader).1) ?_
    rintro ⟨i, entry, hi, ⟨hproblem, hpath⟩ | ⟨hproblem, hpath⟩⟩
    · exact ⟨i, entry, hi, .inl ⟨hproblem, hpath ▸ shownOnlyAt h _ hi⟩⟩
    · exact ⟨i, entry, hi, .inr ⟨hproblem, hpath ▸ shownOnlyAt h _ hi⟩⟩
  · rw [Issue.message, hproblem]
    rfl
  · obtain ⟨i, entry, hi, haccepted, haccount, rfl⟩ := holder_of_taken hissue hproblem
    exact ⟨i, entry, hi, haccepted, haccount, shownOnlyAt h _ hi⟩

/-- A ledger whose buckets are named so that their texts look like those of other entries, and in
which all have one account. -/
def disguisedLedger : Ledger where
  header := ⟨"wei", 18, "QIK"⟩
  buckets := ["", ".address", "a", "a.address", "operators[0]"].map fun name =>
    (name, ⟨"0x00000000000000000000000000000000000000aa", "-1"⟩)
  operators := [⟨"0x00000000000000000000000000000000000000AA", "1"⟩]
  deployer := ⟨"0x00000000000000000000000000000000000000aA", "1"⟩

/-- The address of the bucket without a name is quoted for a bucket that is named like a field. -/
theorem issues_located_disguised :
    let issue : Issue := ⟨DocPath.root.field "buckets" |>.field "a.address" |>.field "address",
      .addressTaken (DocPath.root.field "buckets" |>.field "" |>.field "address")
        ⟨"0x00000000000000000000000000000000000000aa"⟩⟩
    disguisedLedger.buckets.Ordered
      ∧ issue ∈ (disguisedLedger.verify defaultOptions).issues
      ∧ issue.display .plain = "buckets.a.address.address: duplicates buckets..address"
        ++ " (0x00000000000000000000000000000000000000aa)"
      ∧ disguisedLedger.ShownOnlyAt "address" "buckets.a.address.address" 3
      ∧ disguisedLedger.ShownOnlyAt "address" "buckets..address" 0 := by
  intro issue
  have hordered : disguisedLedger.buckets.Ordered := by
    unfold Named.Ordered
    decide
  have hissue : issue ∈ (disguisedLedger.verify defaultOptions).issues := by decide
  obtain ⟨hplace, htaken⟩ := (issues_located .plain defaultOptions hordered).2 issue hissue
  refine ⟨hordered, hissue, by decide, ?_, ?_⟩
  · rcases hplace with hheader | ⟨i, _, _, ⟨_, honly⟩ | ⟨hamount, _⟩⟩
    · exact absurd hheader (by decide)
    · exact (honly 3).mp (by decide) ▸ honly
    · exact absurd hamount amountProblem?_ne_taken
  · obtain ⟨_, i, _, _, _, _, honly⟩ := htaken _ _ rfl
    exact (honly 0).mp (by decide) ▸ honly

end Ledger

end ChainGenesis
