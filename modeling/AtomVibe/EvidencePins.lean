import AtomVibe.ContextEvidence
import AtomVibe.RetrievalOrder

namespace AtomVibe.ContextEvidence

open Checked Text Hash BuildProtocol Wiki

section Removal

variable {evidence : List Evidence} {excess : ℕ}

theorem filter_eraseP {α : Type} (p : α → Bool) (xs : List α) :
    (xs.eraseP p).filter (fun x => !p x) = xs.filter fun x => !p x := by
  induction xs with
  | nil => rfl
  | cons x xs ih =>
    cases hx : p x with
    | true => rw [List.eraseP_cons_of_pos hx, List.filter_cons_of_neg (by simp [hx])]
    | false =>
      rw [List.eraseP_cons_of_neg (by simp [hx]), List.filter_cons_of_pos (by simp [hx]),
        List.filter_cons_of_pos (by simp [hx]), ih]

def isRequired (item : Evidence) : Bool := !isRemovable item

theorem length_split (evidence : List Evidence) :
    (evidence.filter isRemovable).length + (evidence.filter isRequired).length =
      evidence.length := (List.length_eq_length_filter_add isRemovable).symm

theorem removeLast_spec (h : evidence.any isRemovable = true) :
    (evidence.reverse.eraseP isRemovable).reverse.Sublist evidence ∧
      (evidence.reverse.eraseP isRemovable).reverse.length + 1 = evidence.length ∧
        (evidence.reverse.eraseP isRemovable).reverse.filter isRequired =
          evidence.filter isRequired := by
  obtain ⟨item, hitem, hremovable⟩ := List.any_eq_true.mp h
  refine ⟨?_, ?_, ?_⟩
  · rw [← List.reverse_sublist, List.reverse_reverse]
    exact List.eraseP_sublist
  · have hlength := List.length_eraseP_of_mem (List.mem_reverse.mpr hitem) hremovable
    have hpos := List.length_pos_of_mem hitem
    rw [List.length_reverse, hlength, List.length_reverse]
    omega
  · have hrequired := filter_eraseP isRemovable evidence.reverse
    rw [List.filter_reverse, ← List.reverse_inj, List.reverse_reverse, ← List.filter_reverse]
    exact hrequired

theorem dropOver_ok (h : excess ≤ (evidence.filter isRemovable).length) :
    ∃ kept, dropOver excess evidence = .ok kept ∧ kept.Sublist evidence ∧
      kept.length + excess = evidence.length ∧
        kept.filter isRequired = evidence.filter isRequired := by
  induction excess generalizing evidence with
  | zero => exact ⟨evidence, rfl, List.Sublist.refl _, rfl, rfl⟩
  | succ excess ih =>
    have hany : evidence.any isRemovable = true := by
      obtain ⟨item, hitem⟩ := List.exists_mem_of_length_pos (by omega :
        0 < (evidence.filter isRemovable).length)
      exact List.any_eq_true.mpr ⟨item, List.mem_filter.mp hitem⟩
    obtain ⟨hsublist, hlength, hrequired⟩ := removeLast_spec hany
    have hsplit := length_split evidence
    have hrest := length_split (evidence.reverse.eraseP isRemovable).reverse
    rw [hrequired] at hrest
    obtain ⟨kept, hkept, hsub, hlen, hreq⟩ := @ih (evidence.reverse.eraseP isRemovable).reverse
      (by omega)
    refine ⟨kept, ?_, hsub.trans hsublist, by omega, hreq.trans hrequired⟩
    rw [dropOver, if_pos hany, hkept]

theorem le_of_dropOver {kept : List Evidence} (h : dropOver excess evidence = .ok kept) :
    excess ≤ (evidence.filter isRemovable).length := by
  induction excess generalizing evidence with
  | zero => exact Nat.zero_le _
  | succ excess ih =>
    rw [dropOver] at h
    split at h
    · rename_i hany
      obtain ⟨-, hlength, hrequired⟩ := removeLast_spec hany
      have hsplit := length_split evidence
      have hrest := length_split (evidence.reverse.eraseP isRemovable).reverse
      rw [hrequired] at hrest
      have hle := ih h
      omega
    · cases h

end Removal

section Sorting

instance : Trans RanksBefore RanksBefore RanksBefore := ⟨RanksBefore.trans⟩

theorem exists_mem_destutter {α : Type} {key : α → String} (xs : List α) {x : α} (hx : x ∈ xs) :
    ∃ y ∈ xs.destutter fun a b => key a ≠ key b, key y = key x := by
  have hfrom : ∀ (ys : List α) (y z : α), z ∈ y :: ys →
      ∃ found ∈ ys.destutter' (fun a b => key a ≠ key b) y, key found = key z := by
    intro ys
    induction ys with
    | nil =>
      intro y z hz
      obtain rfl := List.mem_singleton.mp hz
      exact ⟨z, List.mem_singleton_self z, rfl⟩
    | cons a ys ih =>
      intro y z hz
      by_cases hsame : key y = key a
      · rw [List.destutter'_cons_neg _ (not_not.mpr hsame)]
        rcases List.mem_cons.mp hz with rfl | hz
        · exact ih z z List.mem_cons_self
        · rcases List.mem_cons.mp hz with rfl | hz
          · obtain ⟨found, hfound, hkey⟩ := ih y y List.mem_cons_self
            exact ⟨found, hfound, hkey.trans hsame⟩
          · exact ih y z (List.mem_cons_of_mem y hz)
      · rw [List.destutter'_cons_pos _ hsame]
        rcases List.mem_cons.mp hz with rfl | hz
        · exact ⟨z, List.mem_cons_self, rfl⟩
        · obtain ⟨found, hfound, hkey⟩ := ih a z hz
          exact ⟨found, List.mem_cons_of_mem y hfound, hkey⟩
  cases xs with
  | nil => exact absurd hx List.not_mem_nil
  | cons y ys =>
    rw [List.destutter_cons']
    exact hfrom ys y x hx

theorem sortDedup_sublist (evidence : List Evidence) :
    (sortDedupEvidence evidence).Sublist (sortEvidence evidence) := List.destutter_sublist _ _

theorem exists_mem_sortDedup {evidence : List Evidence} {item : Evidence} (h : item ∈ evidence) :
    ∃ kept ∈ sortDedupEvidence evidence, kept.nodeId = item.nodeId :=
  exists_mem_destutter _ ((perm_sortEvidence evidence).mem_iff.mpr h)

theorem pairwise_sortDedup (evidence : List Evidence) :
    (sortDedupEvidence evidence).Pairwise RanksBefore := by
  have hle := (pairwise_evidenceLe evidence).sublist (sortDedup_sublist evidence)
  have hne := List.isChain_destutter
    (fun a b : Evidence => a.nodeId ≠ b.nodeId) (sortEvidence evidence)
  rw [← sortDedupEvidence, List.isChain_iff_getElem] at hne
  rw [← List.isChain_iff_pairwise, List.isChain_iff_getElem]
  intro i hi
  exact ranksBefore_of_le (List.pairwise_iff_getElem.mp hle i (i + 1) (by omega) hi (by omega))
    (hne i hi)

theorem nodup_sortDedup (evidence : List Evidence) : (sortDedupEvidence evidence).Nodup :=
  (pairwise_sortDedup evidence).imp fun h heq => (heq ▸ h).asymm (heq ▸ h)

theorem nodup_ids_sortDedup {evidence : List Evidence}
    (h : (evidence.map Evidence.nodeId).Nodup) :
    ((sortDedupEvidence evidence).map Evidence.nodeId).Nodup :=
  (((perm_sortEvidence evidence).map Evidence.nodeId).nodup_iff.mpr h).sublist
    ((sortDedup_sublist evidence).map _)

end Sorting

section Contracts

variable {unicode : RustUnicode} {graph : WikiGraph} {atomStack : List String}
  {evidence : List Evidence}

def Apart (contract other : String × String) : Prop :=
  ∀ item, ¬(belongsTo contract item = true ∧ belongsTo other item = true)

theorem required_apart : requiredGraphEvidence.Pairwise Apart := by
  have hprefixes : requiredGraphEvidence.Pairwise fun contract other =>
      contract.1.toList.isPrefixOf other.1.toList = false ∧
        other.1.toList.isPrefixOf contract.1.toList = false := by decide
  refine hprefixes.imp fun {contract other} h item => ?_
  rintro ⟨hcontract, hother⟩
  rw [belongsTo, startsWith, List.isPrefixOf_iff_prefix] at hcontract hother
  rcases List.prefix_or_prefix_of_prefix hcontract hother with hprefix | hprefix
  · rw [← List.isPrefixOf_iff_prefix, h.1] at hprefix
    exact absurd hprefix Bool.false_ne_true
  · rw [← List.isPrefixOf_iff_prefix, h.2] at hprefix
    exact absurd hprefix Bool.false_ne_true

def missing (contracts : List (String × String)) (evidence : List Evidence) :
    List (String × String) :=
  contracts.filter fun contract => !evidence.any (belongsTo contract)

def fetch (unicode : RustUnicode) (graph : WikiGraph) (atomStack : List String)
    (contract : String × String) : Option Evidence :=
  (graph.retrieve unicode contract.2 atomStack 16).find? (belongsTo contract)

theorem belongsTo_of_fetch {contract : String × String} {item : Evidence}
    (h : fetch unicode graph atomStack contract = some item) : belongsTo contract item = true :=
  List.find?_some h

theorem missing_append {contracts : List (String × String)} {contract : String × String}
    (hapart : ∀ other ∈ contracts, Apart contract other) {item : Evidence}
    (hitem : belongsTo contract item = true) :
    missing contracts (evidence ++ [item]) = missing contracts evidence := by
  apply List.filter_congr
  intro other hother
  have hnot : belongsTo other item = false := by
    by_contra h
    exact hapart other hother item ⟨hitem, Bool.not_eq_false _ ▸ h⟩
  rw [List.any_append, List.any_cons, List.any_nil, hnot, Bool.or_false, Bool.or_false]

theorem pinContracts_eq_ok {contracts : List (String × String)} (hapart : contracts.Pairwise Apart)
    {pinned : List Evidence} :
    pinContracts unicode graph atomStack contracts evidence = .ok pinned ↔
      ∃ fetched, List.Forall₂ (fun contract item =>
        fetch unicode graph atomStack contract = some item) (missing contracts evidence) fetched ∧
          pinned = evidence ++ fetched := by
  induction contracts generalizing evidence with
  | nil =>
    rw [pinContracts]
    constructor
    · intro h
      exact ⟨[], .nil, by rw [List.append_nil, Except.ok.inj h]⟩
    · rintro ⟨fetched, hfetched, rfl⟩
      cases hfetched
      rw [List.append_nil]
  | cons contract contracts ih =>
    rw [List.pairwise_cons] at hapart
    rw [pinContracts]
    by_cases hpresent : evidence.any (belongsTo contract) = true
    · rw [if_pos hpresent, ih hapart.2, missing, missing,
        List.filter_cons_of_neg (by simpa using hpresent)]
    · rw [if_neg hpresent]
      have hmissing : missing (contract :: contracts) evidence =
          contract :: missing contracts evidence :=
        List.filter_cons_of_pos (by simpa using hpresent)
      rw [hmissing, ← fetch]
      cases hfetch : fetch unicode graph atomStack contract with
      | none =>
        constructor
        · intro h
          cases h
        · rintro ⟨fetched, hfetched, -⟩
          cases hfetched with
          | cons hfirst _ =>
            rw [hfetch] at hfirst
            cases hfirst
      | some item =>
        dsimp only
        rw [ih hapart.2, missing_append hapart.1 (belongsTo_of_fetch hfetch)]
        constructor
        · rintro ⟨fetched, hfetched, rfl⟩
          exact ⟨item :: fetched, .cons hfetch hfetched, by
            rw [List.append_assoc, List.singleton_append]⟩
        · rintro ⟨fetched, hfetched, rfl⟩
          cases hfetched with
          | cons hfirst hrest =>
            rw [hfetch] at hfirst
            obtain rfl := Option.some.inj hfirst
            exact ⟨_, hrest, by rw [List.append_assoc, List.singleton_append]⟩

end Contracts

def requestEvidence (unicode : RustUnicode) (graph : WikiGraph) (request : ContextRequest) :
    List Evidence :=
  graph.retrieve unicode (retrievalQuery request) request.atomStack request.evidenceLimit

def Reached (unicode : RustUnicode) (graph : WikiGraph) (request : ContextRequest) : Prop :=
  ∀ contract ∈ requiredGraphEvidence,
    (requestEvidence unicode graph request).any (belongsTo contract) = true ∨
      (graph.retrieve unicode contract.2 request.atomStack 16).any (belongsTo contract) = true

def found (unicode : RustUnicode) (graph : WikiGraph) (request : ContextRequest) : List Evidence :=
  requestEvidence unicode graph request ++
    (missing requiredGraphEvidence (requestEvidence unicode graph request)).filterMap
      (fetch unicode graph request.atomStack)

def Fits (unicode : RustUnicode) (graph : WikiGraph) (request : ContextRequest) : Prop :=
  ((sortDedupEvidence (found unicode graph request)).filter isRequired).length ≤
    request.evidenceLimit

structure Selected (graph : WikiGraph) (limit : ℕ) (items : List Evidence) : Prop where
  length_le : items.length ≤ limit
  nodup : items.Nodup
  ids : graph.ids.Nodup → (items.map Evidence.nodeId).Nodup
  mission : ∃ item ∈ items, item.nodeId = missionId
  contracts : ∀ contract ∈ requiredGraphEvidence, ∃ item ∈ items, belongsTo contract item = true

section Selection

variable {unicode : RustUnicode} {graph : WikiGraph} {request : ContextRequest}
  {items : List Evidence}

theorem forall₂_filterMap {α β : Type} {f : α → Option β} {xs : List α}
    (h : ∀ x ∈ xs, (f x).isSome = true) :
    List.Forall₂ (fun x y => f x = some y) xs (xs.filterMap f) := by
  induction xs with
  | nil => exact .nil
  | cons x xs ih =>
    rw [List.forall_mem_cons] at h
    obtain ⟨y, hy⟩ := Option.isSome_iff_exists.mp h.1
    rw [List.filterMap_cons_some hy]
    exact .cons hy (ih h.2)

theorem filterMap_of_forall₂ {α β : Type} {f : α → Option β} {xs : List α} {ys : List β}
    (h : List.Forall₂ (fun x y => f x = some y) xs ys) : xs.filterMap f = ys := by
  induction h with
  | nil => rfl
  | cons hfirst _ ih => rw [List.filterMap_cons_some hfirst, ih]

theorem fetch_isSome {atomStack : List String} {contract : String × String} :
    (fetch unicode graph atomStack contract).isSome = true ↔
      (graph.retrieve unicode contract.2 atomStack 16).any (belongsTo contract) = true := by
  rw [fetch, List.find?_isSome, List.any_eq_true]

theorem mem_missing {contracts : List (String × String)} {evidence : List Evidence}
    {contract : String × String} : contract ∈ missing contracts evidence ↔
      contract ∈ contracts ∧ ¬evidence.any (belongsTo contract) = true := by
  simp [missing]

theorem reached_iff : Reached unicode graph request ↔ ∀ contract ∈ missing requiredGraphEvidence
    (requestEvidence unicode graph request),
      (fetch unicode graph request.atomStack contract).isSome = true := by
  constructor
  · intro h contract hmissing
    obtain ⟨hcontract, hnone⟩ := mem_missing.mp hmissing
    exact fetch_isSome.mpr ((h contract hcontract).resolve_left hnone)
  · intro h contract hcontract
    by_cases hany : (requestEvidence unicode graph request).any (belongsTo contract) = true
    · exact .inl hany
    · exact .inr (fetch_isSome.mp (h contract (mem_missing.mpr ⟨hcontract, hany⟩)))

theorem pinContracts_ok_iff {pinned : List Evidence} :
    pinContracts unicode graph request.atomStack requiredGraphEvidence
        (requestEvidence unicode graph request) = .ok pinned ↔
      Reached unicode graph request ∧ pinned = found unicode graph request := by
  rw [pinContracts_eq_ok required_apart, reached_iff]
  constructor
  · rintro ⟨fetched, hfetched, rfl⟩
    refine ⟨fun contract hmissing => ?_, ?_⟩
    · obtain ⟨item, hitem⟩ := forall₂_left hfetched contract hmissing
      exact Option.isSome_iff_exists.mpr ⟨item, hitem⟩
    · rw [found, filterMap_of_forall₂ hfetched]
  · rintro ⟨h, rfl⟩
    exact ⟨_, forall₂_filterMap h, rfl⟩

theorem belongsTo_congr {contract : String × String} {item other : Evidence}
    (h : item.nodeId = other.nodeId) : belongsTo contract item = belongsTo contract other := by
  rw [belongsTo, belongsTo, h]

theorem exists_contract {atomStack : List String} {contracts : List (String × String)}
    {fetched : List Evidence} (hfetched : List.Forall₂ (fun contract item =>
      fetch unicode graph atomStack contract = some item) contracts fetched) :
    ∀ item ∈ fetched, ∃ contract ∈ contracts, belongsTo contract item = true := by
  induction hfetched with
  | nil => exact fun item hitem => absurd hitem List.not_mem_nil
  | cons hfirst _ ih =>
    rw [List.forall_mem_cons]
    refine ⟨⟨_, List.mem_cons_self, belongsTo_of_fetch hfirst⟩, fun item hitem => ?_⟩
    obtain ⟨contract, hcontract, hbelongs⟩ := ih item hitem
    exact ⟨contract, List.mem_cons_of_mem _ hcontract, hbelongs⟩

theorem nodup_ids_fetched {atomStack : List String} {contracts : List (String × String)}
    {fetched : List Evidence} (hfetched : List.Forall₂ (fun contract item =>
      fetch unicode graph atomStack contract = some item) contracts fetched)
    (hapart : contracts.Pairwise Apart) : (fetched.map Evidence.nodeId).Nodup := by
  induction hfetched with
  | nil => exact List.nodup_nil
  | @cons contract item contracts fetched hfirst hrest ih =>
    rw [List.pairwise_cons] at hapart
    rw [List.map_cons, List.nodup_cons]
    refine ⟨fun hmem => ?_, ih hapart.2⟩
    obtain ⟨later, hlater, hid⟩ := List.mem_map.mp hmem
    obtain ⟨other, hother, hbelongs⟩ := exists_contract hrest later hlater
    exact hapart.1 other hother item
      ⟨belongsTo_of_fetch hfirst, (belongsTo_congr hid).symm.trans hbelongs⟩

theorem nodup_ids_found (hids : graph.ids.Nodup) (h : Reached unicode graph request) :
    ((found unicode graph request).map Evidence.nodeId).Nodup := by
  have hfetched := forall₂_filterMap (reached_iff.mp h)
  rw [found, List.map_append, List.nodup_append]
  refine ⟨nodup_ids_retrieve hids _,
    nodup_ids_fetched hfetched (required_apart.sublist List.filter_sublist), ?_⟩
  intro id hold id' hnew heq
  obtain ⟨item, hitem, rfl⟩ := List.mem_map.mp hold
  obtain ⟨later, hlater, rfl⟩ := List.mem_map.mp hnew
  obtain ⟨contract, hcontract, hbelongs⟩ := exists_contract hfetched later hlater
  apply (mem_missing.mp hcontract).2
  exact List.any_eq_true.mpr ⟨item, hitem, (belongsTo_congr heq).trans hbelongs⟩

theorem mem_of_required {kept : List Evidence}
    (hkept : kept.filter isRequired =
      (sortDedupEvidence (found unicode graph request)).filter isRequired)
    {item : Evidence} (hitem : item ∈ found unicode graph request)
    (hrequired : ∀ other : Evidence, other.nodeId = item.nodeId → isRequired other = true) :
    ∃ other ∈ kept, other.nodeId = item.nodeId := by
  obtain ⟨other, hother, hid⟩ := exists_mem_sortDedup hitem
  have hmem : other ∈ kept.filter isRequired := by
    rw [hkept]
    exact List.mem_filter.mpr ⟨hother, hrequired other hid⟩
  exact ⟨other, List.mem_of_mem_filter hmem, hid⟩

theorem isRequired_mission {item : Evidence} (h : item.nodeId = missionId) :
    isRequired item = true := by
  simp [isRequired, isRemovable, h]

theorem isRequired_contract {contract : String × String} (hcontract : contract ∈ requiredGraphEvidence)
    {item : Evidence} (h : belongsTo contract item = true) : isRequired item = true := by
  have hany : requiredGraphEvidence.any (belongsTo · item) = true :=
    List.any_eq_true.mpr ⟨contract, hcontract, h⟩
  rw [isRequired, isRemovable, hany, Bool.not_true, Bool.and_false, Bool.not_false]

theorem exists_found (h : Reached unicode graph request) {contract : String × String}
    (hcontract : contract ∈ requiredGraphEvidence) :
    ∃ item ∈ found unicode graph request, belongsTo contract item = true := by
  by_cases hany : (requestEvidence unicode graph request).any (belongsTo contract) = true
  · obtain ⟨item, hitem, hbelongs⟩ := List.any_eq_true.mp hany
    exact ⟨item, List.mem_append_left _ hitem, hbelongs⟩
  · have hmissing := mem_missing.mpr ⟨hcontract, hany⟩
    obtain ⟨item, hitem⟩ := Option.isSome_iff_exists.mp (reached_iff.mp h contract hmissing)
    exact ⟨item, List.mem_append_right _ (List.mem_filterMap.mpr ⟨contract, hmissing, hitem⟩),
      belongsTo_of_fetch hitem⟩

theorem selected_of_fits (hmission : missionId ∈ graph.ids) (hlimit : 1 ≤ request.evidenceLimit)
    (hreached : Reached unicode graph request) (hfits : Fits unicode graph request) :
    ∃ items, selectEvidence unicode graph request = .ok items ∧
      Selected graph request.evidenceLimit items := by
  obtain ⟨item, hitem, hid⟩ := @exists_mission_pin graph hmission _ hlimit
    ((sortEvidence (((graph.nodes.zip (graph.scores unicode (tokenize unicode
      (retrievalQuery request)) request.atomStack)).filter fun entry => 0 < entry.2).map
        fun entry => entry.1.evidence entry.2)).take request.evidenceLimit)
  have hretrieved : item ∈ requestEvidence unicode graph request := hitem
  have hsplit := length_split (sortDedupEvidence (found unicode graph request))
  obtain ⟨kept, hkept, hsublist, hlength, hrequired⟩ := @dropOver_ok
    (sortDedupEvidence (found unicode graph request))
    ((sortDedupEvidence (found unicode graph request)).length - request.evidenceLimit) (by
      unfold Fits at hfits
      omega)
  refine ⟨kept, ?_, ?_, ?_, ?_, ?_, ?_⟩
  · rw [selectEvidence, ← requestEvidence, if_neg (List.ne_nil_of_mem hretrieved),
      pinRequiredGraphEvidence, pinContracts_ok_iff.mpr ⟨hreached, rfl⟩]
    exact hkept
  · omega
  · exact (nodup_sortDedup _).sublist hsublist
  · intro hids
    exact (nodup_ids_sortDedup (nodup_ids_found hids hreached)).sublist (hsublist.map _)
  · obtain ⟨other, hother, hsame⟩ := mem_of_required hrequired
      (List.mem_append_left _ hretrieved) fun other h => isRequired_mission (h.trans hid)
    exact ⟨other, hother, hsame.trans hid⟩
  · intro contract hcontract
    obtain ⟨found, hfound, hbelongs⟩ := exists_found hreached hcontract
    obtain ⟨other, hother, hsame⟩ := mem_of_required hrequired hfound fun other h =>
      isRequired_contract hcontract ((belongsTo_congr h).trans hbelongs)
    exact ⟨other, hother, (belongsTo_congr hsame).trans hbelongs⟩

theorem fits_of_selected (h : selectEvidence unicode graph request = .ok items) :
    Reached unicode graph request ∧ Fits unicode graph request := by
  rw [selectEvidence, ← requestEvidence] at h
  split at h
  · cases h
  · obtain ⟨pinned, hpinned, hdrop⟩ := bind_eq_ok.mp h
    obtain ⟨hreached, rfl⟩ := pinContracts_ok_iff.mp hpinned
    have hover := le_of_dropOver hdrop
    have hsplit := length_split (sortDedupEvidence (found unicode graph request))
    refine ⟨hreached, ?_⟩
    unfold Fits
    omega

theorem limit_of_valid (h : request.validate = .ok ()) :
    4 ≤ request.evidenceLimit ∧ request.evidenceLimit ≤ 64 := by
  obtain ⟨_, -, h⟩ := bind_eq_ok.mp h
  obtain ⟨_, -, h⟩ := bind_eq_ok.mp h
  obtain ⟨_, -, h⟩ := bind_eq_ok.mp h
  obtain ⟨_, hlimit, -⟩ := bind_eq_ok.mp h
  have hbounds := refuseIf_eq_ok.mp hlimit
  omega

end Selection

section Ranks

variable {unicode : RustUnicode} {graph : WikiGraph} {request : ContextRequest}

def Ranks (unicode : RustUnicode) (graph : WikiGraph) (query : String) (atomKeys : List String)
    (limit : ℕ) (node : WikiNode) : Prop :=
  Contends unicode graph (tokenize unicode query) atomKeys node ∧
    rank unicode graph (tokenize unicode query) atomKeys node < limit - 1

theorem ne_mission_of_belongs {contract : String × String}
    (hcontract : contract ∈ requiredGraphEvidence) {item : Evidence}
    (h : belongsTo contract item = true) : item.nodeId ≠ missionId := by
  have hmission : ∀ contract ∈ requiredGraphEvidence, startsWith contract.1 missionId = false := by
    decide
  intro hid
  rw [belongsTo, hid, hmission contract hcontract] at h
  exact absurd h Bool.false_ne_true

theorem any_retrieve_iff (hweighted : graph.Weighted) (hids : graph.ids.Nodup)
    (hmission : missionId ∈ graph.ids) {contract : String × String}
    (hcontract : contract ∈ requiredGraphEvidence) (query : String) (atomKeys : List String)
    {limit : ℕ} (hlimit : 1 ≤ limit) :
    (graph.retrieve unicode query atomKeys limit).any (belongsTo contract) = true ↔
      ∃ node ∈ graph.nodes, startsWith contract.1 node.id = true ∧
        Ranks unicode graph query atomKeys limit node := by
  obtain ⟨n, rfl⟩ : ∃ n, limit = n + 1 := ⟨limit - 1, by omega⟩
  obtain ⟨mission, hnode⟩ := find_mission hmission
  have hid : mission.id = missionId := by simpa using List.find?_some hnode
  have hothers := (@retrieved_of_mission unicode graph atomKeys query hids mission hnode
    (mission_score hweighted hid) n).others
  rw [List.any_eq_true]
  constructor
  · rintro ⟨item, hitem, hbelongs⟩
    obtain ⟨node, hmem, hcontends, hrank, rfl⟩ :=
      (hothers item).mp ⟨hitem, ne_mission_of_belongs hcontract hbelongs⟩
    exact ⟨node, hmem, hbelongs, hcontends, hrank⟩
  · rintro ⟨node, hmem, hbelongs, hcontends, hrank⟩
    exact ⟨_, ((hothers _).mpr ⟨node, hmem, hcontends, hrank, rfl⟩).1, hbelongs⟩

theorem reached_iff_ranks (hweighted : graph.Weighted) (hids : graph.ids.Nodup)
    (hmission : missionId ∈ graph.ids) (hlimit : 1 ≤ request.evidenceLimit) :
    Reached unicode graph request ↔ ∀ contract ∈ requiredGraphEvidence, ∃ node ∈ graph.nodes,
      startsWith contract.1 node.id = true ∧
        (Ranks unicode graph (retrievalQuery request) request.atomStack request.evidenceLimit
            node ∨
          Ranks unicode graph contract.2 request.atomStack 16 node) := by
  unfold Reached requestEvidence
  refine forall₂_congr fun contract hcontract => ?_
  rw [any_retrieve_iff hweighted hids hmission hcontract _ _ hlimit,
    any_retrieve_iff hweighted hids hmission hcontract _ _ (by decide)]
  constructor
  · rintro (⟨node, hnode, hstart, hranks⟩ | ⟨node, hnode, hstart, hranks⟩)
    · exact ⟨node, hnode, hstart, .inl hranks⟩
    · exact ⟨node, hnode, hstart, .inr hranks⟩
  · rintro ⟨node, hnode, hstart, hranks | hranks⟩
    · exact .inl ⟨node, hnode, hstart, hranks⟩
    · exact .inr ⟨node, hnode, hstart, hranks⟩

end Ranks

/-- For a valid request on a graph with the mission, evidence with every contract is selected
exactly if a node of each is returned at all and all that has to stay fits. -/
theorem evidence_selected_iff (unicode : RustUnicode) (graph : WikiGraph)
    (request : ContextRequest) (hvalid : request.validate = .ok ())
    (hmission : missionId ∈ graph.ids) :
    (∃ items, selectEvidence unicode graph request = .ok items ∧
      Selected graph request.evidenceLimit items) ↔
        Reached unicode graph request ∧ Fits unicode graph request := by
  have hlimit := (limit_of_valid hvalid).1
  constructor
  · rintro ⟨items, hitems, -⟩
    exact fits_of_selected hitems
  · rintro ⟨hreached, hfits⟩
    exact selected_of_fits hmission (by omega) hreached hfits

def sampleRequest : ContextRequest :=
  ⟨⟨"build-1", "Build an app", .blueprint, [], ""⟩, 4, 512⟩

theorem evidence_selected_sample :
    (∃ items, selectEvidence asciiUnicode .seeded sampleRequest = .ok items ∧
      Selected .seeded 4 items) ↔
        Reached asciiUnicode .seeded sampleRequest ∧ Fits asciiUnicode .seeded sampleRequest :=
  evidence_selected_iff asciiUnicode .seeded sampleRequest (by decide +kernel) (by decide +kernel)

def thinNotes : WikiDir :=
  .file (asBytes "atom-vibe-build-spine.md") "# Rules\n".toByteArray
    (.file (asBytes "model-scratchpad.md") "# Notes\n".toByteArray
      (.file (asBytes "thinking-model-requirements.md") "# Models\n".toByteArray .empty))

def spineNode : WikiNode := ⟨"wiki:atom-vibe-build-spine", "Rules", "", "# Rules\n", ["wiki"]⟩

def rivals : List (WikiNode × String) :=
  (fixedNodes.filter fun node =>
    ["bus:spiderweb", "rag:wiki-graph", "gate:fail-closed"].contains node.id).zip
      ["spiderweb", "wiki", "gate"]

def thinGraphFacts (graph : WikiGraph) : Bool :=
  decide (graph.ids.Nodup ∧ missionId ∈ graph.ids ∧
    (∀ contract ∈ requiredGraphEvidence, ∃ id ∈ graph.ids, startsWith contract.1 id = true) ∧
    graph.nodes.filter (startsWith "wiki:atom-vibe-build-spine" ·.id) = [spineNode] ∧
    graph.edges.filter (·.toId = spineNode.id) = [] ∧ ∀ rival ∈ rivals, rival.1 ∈ graph.nodes)

theorem thin_facts : ∃ graph, fromMarkdownDir asciiUnicode thinNotes = .ok graph ∧
    thinGraphFacts graph = true := exists_ok_of_any (by decide +kernel)

def sampleTerms : List String :=
  ["build", "an", "app", "build", "step", "blueprint", "current", "skill", "atom-build-blueprint",
    "required", "subsystems", "wiki", "graph", "rag", "spiderweb", "bus", "model", "scratchpad",
    "mandatory", "thinking", "evidence", "qwen3", "5", "9b", "q8-or-stronger", "local", "baseline",
    "independent", "gate", "evidence"]

theorem thin_scores :
    tokenize asciiUnicode (retrievalQuery sampleRequest) = sampleTerms ∧
    directScore asciiUnicode spineNode sampleTerms [] = 6 ∧
    directScore asciiUnicode spineNode (tokenize asciiUnicode
      "Atom Vibe Coder fixed build spine gates corrections launch proof") [] = 0 ∧
    sampleRequest.validate = .ok () := by decide +kernel

theorem thin_rivals : (rivals.map Prod.fst).Nodup ∧ (rivals.map Prod.fst).length = 3 ∧
    ∀ rival ∈ rivals, rival.1.id ≠ missionId ∧ rival.2 ∈ sampleTerms ∧
      contains rival.2.toList (asciiUnicode.lowercase rival.1.title).toList = true ∧
        rival.1.tags.any (eqIgnoreAsciiCase · rival.2) = true := by decide +kernel

theorem eleven_le_termScore {node : WikiNode} {title excerpt term : String}
    (htitle : contains term.toList title.toList = true)
    (htag : node.tags.any (eqIgnoreAsciiCase · term) = true) :
    11 ≤ termScore node title excerpt term := by
  rw [termScore, if_pos htitle, if_pos htag]
  split_ifs <;> decide

theorem nodeScore_of_no_edges {unicode : RustUnicode} {graph : WikiGraph}
    {terms atomKeys : List String} {node : WikiNode} (hid : node.id ≠ missionId)
    (hedges : graph.edges.filter (·.toId = node.id) = []) :
    nodeScore unicode graph terms atomKeys node = directScore unicode node terms atomKeys := by
  rw [nodeScore, hedges, List.map_nil, List.sum_nil, add_zero, ownScore, if_neg hid, zero_add]

theorem three_le_rank {graph : WikiGraph} (hweighted : graph.Weighted)
    (hrivals : ∀ rival ∈ rivals, rival.1 ∈ graph.nodes)
    (hedges : graph.edges.filter (·.toId = spineNode.id) = []) :
    3 ≤ rank asciiUnicode graph sampleTerms [] spineNode := by
  obtain ⟨hdistinct, hlength, hfound⟩ := thin_rivals
  have hsubperm : (rivals.map Prod.fst).Subperm graph.nodes := by
    apply List.subperm_of_subset hdistinct
    intro node hnode
    obtain ⟨rival, hrival, rfl⟩ := List.mem_map.mp hnode
    exact hrivals rival hrival
  have hscore := @nodeScore_of_no_edges asciiUnicode graph sampleTerms [] spineNode (by decide)
    hedges
  rw [thin_scores.2.1] at hscore
  refine le_trans hlength.ge (le_trans ?_ (hsubperm.countP_le _))
  apply (List.countP_eq_length.mpr ?_).ge
  intro node hnode
  obtain ⟨rival, hmem, rfl⟩ := List.mem_map.mp hnode
  obtain ⟨hid, hterm, htitle, htag⟩ := hfound rival hmem
  have heleven := @eleven_le_termScore rival.1 _ (asciiUnicode.lowercase rival.1.excerpt) _ htitle
    htag
  have hdirect := @termScore_le_directScore asciiUnicode sampleTerms [] rival.1 _ hterm
  have hbounds := @nodeScore_bounds asciiUnicode graph sampleTerms [] hweighted rival.1
  rw [ownScore, if_neg hid, zero_add] at hbounds
  have habove : nodeScore asciiUnicode graph sampleTerms [] spineNode <
      nodeScore asciiUnicode graph sampleTerms [] rival.1 := by omega
  rw [decide_eq_true_eq]
  exact ⟨⟨hid, by omega⟩, .inl habove⟩

theorem thin_contract_missed : ∃ graph, fromMarkdownDir asciiUnicode thinNotes = .ok graph ∧
    missionId ∈ graph.ids ∧
    (∀ contract ∈ requiredGraphEvidence, ∃ id ∈ graph.ids, startsWith contract.1 id = true) ∧
    sampleRequest.validate = .ok () ∧
    ¬∃ items, selectEvidence asciiUnicode graph sampleRequest = .ok items ∧
      Selected graph sampleRequest.evidenceLimit items := by
  obtain ⟨graph, hload, hfacts⟩ := thin_facts
  obtain ⟨hids, hmission, hcontracts, hspine, hedges, hrivals⟩ := of_decide_eq_true hfacts
  have hweighted : graph.Weighted := (Built.markdown hload).weighted
  obtain ⟨hterms, -, hcontract, hvalid⟩ := thin_scores
  refine ⟨graph, hload, hmission, hcontracts, hvalid, ?_⟩
  rintro ⟨items, hitems, -⟩
  have hreached := (reached_iff_ranks hweighted hids hmission (by decide)).mp
    (fits_of_selected hitems).1
  obtain ⟨node, hnode, hstart, hranks⟩ := hreached _ List.mem_cons_self
  have hmem : node ∈ graph.nodes.filter (startsWith "wiki:atom-vibe-build-spine" ·.id) :=
    List.mem_filter.mpr ⟨hnode, hstart⟩
  rw [hspine] at hmem
  obtain rfl := List.mem_singleton.mp hmem
  rcases hranks with ⟨-, hrank⟩ | ⟨hcontends, -⟩
  · have hthree := three_le_rank hweighted hrivals hedges
    have hlimit : sampleRequest.evidenceLimit = 4 := rfl
    rw [hlimit, hterms] at hrank
    exact absurd hthree (not_le.mpr hrank)
  · have hscore := hcontends.2
    rw [nodeScore_of_no_edges (by decide) hedges] at hscore
    exact absurd hscore (not_lt.mpr hcontract.le)

end AtomVibe.ContextEvidence
