import OpenAgent.Gateway.ArtifactChannel

namespace OpenAgent.Gateway

open Py HostTools Option Assoc VisitState Except

def Unmarked (j : Json) : Prop := j.Everywhere (fun entries => referenceId? entries = none)

mutual

def plain : Json → Visited
  | .arr items => .arr (plainList items)
  | .obj entries => .obj (plainEntries entries)
  | j => .leaf j

def plainList : List Json → List Visited
  | [] => []
  | j :: js => plain j :: plainList js

def plainEntries : List (String × Json) → List (String × Visited)
  | [] => []
  | (k, j) :: es => (k, plain j) :: plainEntries es

end

theorem plainEntries_eq_map (es : List (String × Json)) : plainEntries es = es.map (fun e => (e.1, plain e.2)) := by
  induction es with
  | nil => rfl
  | cons e es ih => rw [plainEntries, ih, List.map_cons]

theorem get?_plainEntries (es : List (String × Json)) (k : String) :
    Assoc.get? (plainEntries es) k = (Assoc.get? es k).map plain := by
  rw [plainEntries_eq_map]
  exact get?_mapValues plain es k

theorem set_plainEntries (es : List (String × Json)) (k : String) (j : Json) :
    Assoc.set (plainEntries es) k (plain j) = plainEntries (Assoc.set es k j) := by
  rw [plainEntries_eq_map, plainEntries_eq_map]
  exact set_mapValues plain es k j

mutual

theorem read_plain (cache : Dict String Json) : ∀ j : Json, (plain j).read cache = j
  | .arr items => congrArg Json.arr (readList_plain cache items)
  | .obj entries => congrArg Json.obj (readEntries_plain cache entries)
  | .null | .bool _ | .int _ | .float _ | .str _ => rfl

theorem readList_plain (cache : Dict String Json) : ∀ js : List Json, readList cache (plainList js) = js
  | [] => rfl
  | j :: js => by rw [plainList, readList, read_plain cache j, readList_plain cache js]

theorem readEntries_plain (cache : Dict String Json) :
    ∀ es : List (String × Json), readEntries cache (plainEntries es) = es
  | [] => rfl
  | (k, j) :: es => by rw [plainEntries, readEntries, read_plain cache j, readEntries_plain cache es]

end

/-- A walk after `n` more nodes. -/
def VisitState.after (s : VisitState) (n : Nat) : VisitState := { s with nodes := s.nodes + n }

theorem visitNode_ok {s : VisitState} {n : Nat} (h : s.nodes + (1 + n) ≤ maxArtifactResultNodes) :
    visitNode s = .ok ((), s.after 1) := by
  rw [visitNode, if_neg (by omega)]
  rfl

variable {t : VisitState}

section Plain

variable [Sha256] (table : Artifacts)

variable {table} in
theorem visit_leaf {j : Json} (ho : ∀ entries, j ≠ .obj entries) (ha : ∀ items, j ≠ .arr items)
    {s : VisitState} (h : visitNode s = .ok ((), t)) : visit table j s = .ok (.leaf j, t) := by
  rw [visit]
  simp only [bind, StateT.bind, bind, h]
  · rfl
  all_goals assumption

theorem visit_arr (items : List Json) {s : VisitState} (h : visitNode s = .ok ((), t)) :
    visit table (.arr items) s = (visitList table items t).map (fun r => (.arr r.1, r.2)) := by
  rw [visit]
  simp only [bind, StateT.bind, Except.bind, h]
  cases visitList table items t <;> rfl

theorem visit_obj {entries : List (String × Json)} (hr : referenceId? entries = none) {s : VisitState}
    (h : visitNode s = .ok ((), t)) :
    visit table (.obj entries) s = (visitEntries table entries t).map (fun r => (.obj r.1, r.2)) := by
  rw [visit]
  simp only [bind, StateT.bind, Except.bind, h, hr]
  cases visitEntries table entries t <;> rfl

theorem visitList_cons (j : Json) (js : List Json) {s : VisitState} {v : Visited} (h : visit table j s = .ok (v, t)) :
    visitList table (j :: js) s = (visitList table js t).map (fun r => (v :: r.1, r.2)) := by
  rw [visitList]
  simp only [bind, StateT.bind, Except.bind, h]
  cases visitList table js t <;> rfl

theorem visitEntries_cons (k : String) (j : Json) (es : List (String × Json)) {s : VisitState} {v : Visited}
    (h : visit table j s = .ok (v, t)) :
    visitEntries table ((k, j) :: es) s = (visitEntries table es t).map (fun r => ((k, v) :: r.1, r.2)) := by
  rw [visitEntries]
  simp only [bind, StateT.bind, Except.bind, h]
  cases visitEntries table es t <;> rfl

mutual

theorem visit_plain : ∀ (j : Json) (s : VisitState), Unmarked j →
    s.nodes + j.nodeCount ≤ maxArtifactResultNodes → visit table j s = .ok (plain j, s.after j.nodeCount)
  | .arr items, s, h, hn => by
    rw [Json.nodeCount] at hn
    have hlist := visitList_plain items (s.after 1) h (by simp only [after]; omega)
    rw [visit_arr table items (visitNode_ok hn), hlist]
    simp only [Except.map, plain, Json.nodeCount, after, Nat.add_assoc]
  | .obj entries, s, h, hn => by
    rw [Json.nodeCount] at hn
    have hes := visitEntries_plain entries (s.after 1) h.2 (by simp only [after]; omega)
    rw [visit_obj table h.1 (visitNode_ok hn), hes]
    simp only [Except.map, plain, Json.nodeCount, after, Nat.add_assoc]
  | .null, s, _, hn | .bool _, s, _, hn | .int _, s, _, hn | .float _, s, _, hn | .str _, s, _, hn =>
    visit_leaf (by simp) (by simp) (visitNode_ok (n := 0) hn)

theorem visitList_plain : ∀ (js : List Json) (s : VisitState),
    Json.EverywhereList (fun entries => referenceId? entries = none) js →
    s.nodes + Json.nodeCountList js ≤ maxArtifactResultNodes →
    visitList table js s = .ok (plainList js, s.after (Json.nodeCountList js))
  | [], s, _, _ => by
    rw [visitList]
    rfl
  | j :: js, s, h, hn => by
    rw [Json.nodeCountList] at hn
    have hj := visit_plain j s h.1 (by omega)
    have hjs := visitList_plain js (s.after j.nodeCount) h.2 (by simp only [after]; omega)
    rw [visitList_cons table j js hj, hjs]
    simp only [Except.map, plainList, Json.nodeCountList, after, Nat.add_assoc]

theorem visitEntries_plain : ∀ (es : List (String × Json)) (s : VisitState),
    Json.EverywhereEntries (fun entries => referenceId? entries = none) es →
    s.nodes + Json.nodeCountEntries es ≤ maxArtifactResultNodes →
    visitEntries table es s = .ok (plainEntries es, s.after (Json.nodeCountEntries es))
  | [], s, _, _ => by
    rw [visitEntries]
    rfl
  | (k, j) :: es, s, h, hn => by
    rw [Json.nodeCountEntries] at hn
    have hj := visit_plain j s h.1 (by omega)
    have hes := visitEntries_plain es (s.after j.nodeCount) h.2 (by simp only [after]; omega)
    rw [visitEntries_cons table k j es hj, hes]
    simp only [Except.map, plainEntries, Json.nodeCountEntries, after, Nat.add_assoc]

end

end Plain

/-- A block marked as client-local in its `_meta`; a `_meta` that is no object is replaced. -/
def located : Json → Json
  | .obj entries =>
    let own := match Assoc.get? entries "_meta" with
      | some (.obj metadata) => metadata
      | _ => []
    .obj (Assoc.set entries "_meta" (.obj (withLocation .str own)))
  | j => j

mutual

/-- What a result is to arrive as: every block sent through the channel in canonical base64 and marked as client-local,
everything else as it was. -/
def delivered (metadata : Json) : Json → Json
  | .arr items => .arr (deliveredList metadata items)
  | .obj raw =>
    match largeField metadata raw with
    | some (field, data) => located (Json.setPath field.insertPath (.str (b64encode data)) (.obj raw))
    | none => .obj (deliveredEntries metadata raw)
  | j => j

def deliveredList (metadata : Json) : List Json → List Json
  | [] => []
  | j :: js => delivered metadata j :: deliveredList metadata js

def deliveredEntries (metadata : Json) : List (String × Json) → List (String × Json)
  | [] => []
  | (k, j) :: es => (k, delivered metadata j) :: deliveredEntries metadata es

end

variable {es raw : List (String × Json)} {field : EncodedField}

section Blocks

theorem insertVisited_plain (cache : Dict String Json) (text : String) (path : List String) (j : Json) :
    insertVisited cache path (.str text) (plain j) =
      (insertJson path (.str text) j).map (fun whole => (plain whole, cache)) := by
  induction path generalizing j with
  | nil => cases j <;> rfl
  | cons k ks ih =>
    cases j with
    | obj entries =>
      cases ks with
      | nil =>
        rw [plain, insertVisited, insertJson, map_some, plain, ← set_plainEntries]
        rfl
      | cons i is =>
        rw [plain, insertVisited, insertJson, get?_plainEntries]
        · cases get? entries k with
          | none => rfl
          | some child =>
            cases child with
            | obj es =>
              have hes := ih (.obj es)
              simp only [plain] at hes
              simp only [map_some, plain, hes, map_map]
              cases insertJson (i :: is) (.str text) (.obj es) with
              | none => rfl
              | some whole =>
                simp only [map_some, Function.comp_apply, plain, ← set_plainEntries]
            | _ => rfl
        all_goals simp
    | _ => cases ks <;> rfl

theorem locateBlock_plain (cache : Dict String Json) (j : Json) :
    locateBlock cache (plain j) = (plain (located j), cache) := by
  cases j with
  | obj entries =>
    have hown : ∀ o : Option Json, copiedEntries cache (o.map plain) = plainEntries (match o with
        | some (.obj metadata) => metadata
        | _ => []) := by
      intro o
      cases o with
      | none => rfl
      | some metadata => cases metadata <;> rfl
    have hmark : ∀ es : List (String × Json), withLocation (fun s => .leaf (.str s)) (plainEntries es) =
        plainEntries (withLocation .str es) := by
      intro es
      rw [withLocation, withLocation, ← set_plainEntries, ← set_plainEntries]
      rfl
    rw [plain, locateBlock, get?_plainEntries, hown, hmark, located, plain, ← set_plainEntries]
    rfl
  | _ => rfl

theorem located_canon {fs : List (String × Json)} (hn : (es.map Prod.fst).Nodup)
    (hm : (fs.map Prod.fst).Nodup) (hmeta : Assoc.get? es "_meta" = Assoc.get? fs "_meta")
    (h : ∀ k, (Assoc.get? es k).map Json.canon = (Assoc.get? fs k).map Json.canon) :
    (located (.obj es)).canon = (located (.obj fs)).canon := by
  rw [located, located, hmeta]
  apply Json.canon_obj_ext (nodup_set hn _ _) (nodup_set hm _ _)
  intro k
  rw [get?_set, get?_set]
  split
  · rfl
  · exact h k

structure Splits (raw : List (String × Json)) (field : EncodedField) (rest : List (String × Json)) : Prop where
  template : field.template = .obj rest
  path : insertPath? (.arr (field.insertPath.map .str)) = some field.insertPath
  unmarked : Unmarked (.obj raw) → Unmarked (.obj rest)
  nodes : (Json.obj raw).KeysDistinct → (Json.obj rest).nodeCount + 1 = (Json.obj raw).nodeCount
  whole : (Json.obj raw).KeysDistinct → ∀ text, ∃ whole,
    insertJson field.insertPath (.str text) (.obj rest) = some whole ∧
      (located whole).canon = (located (Json.setPath field.insertPath (.str text) (.obj raw))).canon

theorem referenceId?_congr {fs : List (String × Json)} (ht : Assoc.get? es "type" = Assoc.get? fs "type")
    (hi : Assoc.get? es "transfer_id" = Assoc.get? fs "transfer_id") : referenceId? es = referenceId? fs := by
  simp only [referenceId?, ht, hi]

theorem Unmarked.erase (h : Unmarked (.obj raw)) {k : String}
    (ht : k ≠ "type") (hi : k ≠ "transfer_id") : Unmarked (.obj (Assoc.erase raw k)) := by
  refine ⟨?_, (Json.everywhereEntries_iff _).mpr fun e he => ?_⟩
  · refine (referenceId?_congr ?_ ?_).trans h.1
    · rw [get?_erase, if_neg ht.symm]
    · rw [get?_erase, if_neg hi.symm]
  · exact (Json.everywhereEntries_iff _).mp h.2 e (List.mem_filter.mp he).1

theorem nodeCount_erase (hn : (raw.map Prod.fst).Nodup) {k : String} {j : Json} (h : Assoc.get? raw k = some j) :
    Json.nodeCountEntries raw = j.nodeCount + Json.nodeCountEntries (Assoc.erase raw k) := by
  rw [Json.nodeCountEntries_eq_sum, Json.nodeCountEntries_eq_sum]
  exact ((perm_erase hn h).map (fun e => e.2.nodeCount)).sum_eq

theorem splits_flat {k text mimeType : String} (h : Assoc.get? raw k = some (.str text)) (hk : k ∈ ["data", "text"]) :
    Splits raw ⟨text, mimeType, .obj (Assoc.erase raw k), [k]⟩ (Assoc.erase raw k) where
  template := rfl
  path := by
    simp only [List.mem_cons, List.not_mem_nil, or_false] at hk
    rcases hk with rfl | rfl
    · rfl
    · rfl
  unmarked := by
    intro hu
    simp only [List.mem_cons, List.not_mem_nil, or_false] at hk
    rcases hk with rfl | rfl
    · exact hu.erase (by decide) (by decide)
    · exact hu.erase (by decide) (by decide)
  nodes := by
    intro hd
    have htext : (Json.str text).nodeCount = 1 := rfl
    rw [Json.nodeCount, Json.nodeCount, nodeCount_erase hd.1 h, htext]
    omega
  whole := by
    intro hd value
    have hmeta : "_meta" ≠ k := by
      rintro rfl
      simp at hk
    have hsame : ∀ i, get? (set (erase raw k) k (.str value)) i =
        get? (set raw k (.str value)) i := by
      intro i
      rw [get?_set, get?_set, get?_erase]
      split
      · rfl
      · rfl
    refine ⟨.obj (set (erase raw k) k (.str value)), rfl, ?_⟩
    exact located_canon (nodup_set (nodup_erase hd.1 k) _ _) (nodup_set hd.1 _ _)
      (hsame "_meta") (fun i => congrArg _ (hsame i))

theorem splits_resource {resource : List (String × Json)} {text mimeType : String}
    (h : Assoc.get? raw "resource" = some (.obj resource)) (hb : Assoc.get? resource "blob" = some (.str text)) :
    Splits raw ⟨text, mimeType, .obj (Assoc.set raw "resource" (.obj (Assoc.erase resource "blob"))),
      ["resource", "blob"]⟩ (Assoc.set raw "resource" (.obj (Assoc.erase resource "blob"))) where
  template := rfl
  path := rfl
  unmarked := by
    intro hu
    have hall := (Json.everywhereEntries_iff _).mp hu.2
    have hres : Unmarked (.obj resource) := hall _ (mem_of_get? h)
    refine ⟨?_, (Json.everywhereEntries_iff _).mpr fun e he => ?_⟩
    · refine (referenceId?_congr ?_ ?_).trans hu.1
      · rw [get?_set, if_neg (by decide)]
      · rw [get?_set, if_neg (by decide)]
    rcases mem_set he with rfl | he
    · exact hres.erase (by decide) (by decide)
    · exact hall e he
  nodes := by
    intro hd
    have hres : (Json.obj resource).KeysDistinct :=
      (Json.everywhereEntries_iff _).mp hd.2 _ (mem_of_get? h)
    have htext : (Json.str text).nodeCount = 1 := rfl
    have hset : Json.nodeCountEntries (set raw "resource" (.obj (erase resource "blob"))) =
        (Json.obj (erase resource "blob")).nodeCount + Json.nodeCountEntries (erase raw "resource") := by
      rw [Json.nodeCountEntries_eq_sum, Json.nodeCountEntries_eq_sum]
      exact ((perm_set hd.1 _ _).map (fun e => e.2.nodeCount)).sum_eq
    rw [Json.nodeCount, Json.nodeCount, hset, nodeCount_erase hd.1 h, Json.nodeCount, Json.nodeCount,
      nodeCount_erase hres.1 hb, htext]
    omega
  whole := by
    intro hd value
    have hres : (Json.obj resource).KeysDistinct :=
      (Json.everywhereEntries_iff _).mp hd.2 _ (mem_of_get? h)
    have hinn : (Json.obj (set (erase resource "blob") "blob" (.str value))).canon =
        (Json.obj (set resource "blob" (.str value))).canon := by
      apply Json.canon_obj_ext (nodup_set (nodup_erase hres.1 _) _ _) (nodup_set hres.1 _ _)
      intro i
      rw [get?_set, get?_set, get?_erase]
      split
      · rfl
      · rfl
    have hsto : insertJson ["resource", "blob"] (.str value)
        (.obj (set raw "resource" (.obj (erase resource "blob")))) =
        some (.obj (set (set raw "resource" (.obj (erase resource "blob"))) "resource"
          (.obj (set (erase resource "blob") "blob" (.str value))))) := by
      simp only [insertJson, get?_set, if_true, map_some]
    refine ⟨_, hsto, ?_⟩
    simp only [Json.setPath, h, getD_some]
    refine located_canon (nodup_set (nodup_set hd.1 _ _) _ _) (nodup_set hd.1 _ _) ?_ fun i => ?_
    · rw [get?_set, get?_set, get?_set]
      rfl
    rw [get?_set, get?_set, get?_set]
    split
    · exact congrArg some hinn
    · rfl

theorem some_of_getD {o : Option Json} {text : String} (h : o.getD .null = .str text) : o = some (.str text) := by
  cases o with
  | none => cases h
  | some j => exact congrArg some h

theorem encodedField_splits {metadata : Json}
    (h : encodedField metadata raw = some field) : ∃ rest, Splits raw field rest := by
  simp only [encodedField] at h
  split at h
  · split at h
    · rename_i hdata
      cases h
      exact ⟨_, splits_flat (some_of_getD hdata) (by simp)⟩
    · cases h
  split at h
  · cases hr : get? raw "resource" with
    | none =>
      rw [hr] at h
      cases h
    | some resource =>
      rw [hr] at h
      cases resource with
      | obj resource =>
        simp only [getD_some] at h
        split at h
        · rename_i hb
          cases h
          exact ⟨_, splits_resource hr hb⟩
        · cases h
      | _ => cases h
  split at h
  · split at h
    · rename_i htext _
      cases h
      exact ⟨_, splits_flat (some_of_getD htext) (by simp)⟩
    · cases h
  · cases h

theorem largeField_splits {metadata : Json} {data : List UInt8} (h : largeField metadata raw = some (field, data)) :
    (∃ rest, Splits raw field rest) ∧ artifactThresholdBytes ≤ data.length := by
  simp only [largeField, bind_eq_some_iff] at h
  obtain ⟨found, hf, bytes, _, h⟩ := h
  split at h
  · rename_i hlar
    cases h
    exact ⟨encodedField_splits hf, hlar⟩
  · cases h

end Blocks

def Extracts (s s' : PrepareState) (unchanged : Prop) : Prop :=
  ∃ new, s'.artifacts = s.artifacts ++ new ∧ (∀ a ∈ new, artifactThresholdBytes ≤ a.data.length) ∧
    (new = [] → unchanged)

variable {s s' : PrepareState}

theorem Extracts.trans {s₁ : PrepareState} {P Q : Prop} (h : Extracts s s₁ P) (k : Extracts s₁ s' Q) :
    Extracts s s' (P ∧ Q) := by
  obtain ⟨as, hs, hlar, hP⟩ := h
  obtain ⟨bs, hs', hlar', hQ⟩ := k
  refine ⟨as ++ bs, by rw [hs', hs, List.append_assoc], fun a ha => ?_, fun hemp => ?_⟩
  · rcases List.mem_append.mp ha with ha | ha
    · exact hlar a ha
    · exact hlar' a ha
  · obtain ⟨ha, hb⟩ := List.append_eq_nil_iff.mp hemp
    exact ⟨hP ha, hQ hb⟩

theorem Extracts.mono {P Q : Prop} (h : Extracts s s' P) (hPQ : P → Q) : Extracts s s' Q := by
  obtain ⟨as, hs, hlar, hP⟩ := h
  exact ⟨as, hs, hlar, fun ha => hPQ (hP ha)⟩

theorem Extracts.refl (s : PrepareState) {P : Prop} (h : P) : Extracts s s P :=
  ⟨[], (List.append_nil _).symm, by simp, fun _ => h⟩

theorem Extracts.subset {P : Prop} (h : Extracts s s' P) : ∀ a ∈ s.artifacts, a ∈ s'.artifacts := by
  obtain ⟨as, hs, _⟩ := h
  intro a ha
  rw [hs]
  exact List.mem_append_left as ha

theorem bind_ok {ε σ α β : Type} {x : StateT σ (Except ε) α} {f : α → StateT σ (Except ε) β} {s : σ}
    {r : β × σ} (h : (x >>= f) s = .ok r) : ∃ a, x s = .ok a ∧ f a.1 a.2 = .ok r := by
  change (x s).bind (fun a => f a.1 a.2) = .ok r at h
  cases hx : x s with
  | error e =>
    rw [hx] at h
    cases h
  | ok a =>
    rw [hx] at h
    exact ⟨a, rfl, h⟩

section Walks

variable [Sha256] {table : Artifacts} {callId : String} {metadata : Json}

theorem visit_templated (table : Artifacts) {entries : List (String × Json)} {transferId : String} {path : List String}
    {template : Json} (hr : referenceId? entries = some transferId) (hs : referenceShape entries = .templated path)
    (ht : Assoc.get? entries "artifact_template" = some template) {s u : VisitState}
    (hn : visitNode s = .ok ((), t)) (hu : resolveReference table transferId t = .ok ((), u)) :
    visit table (.obj entries) s = (visit table template u).bind (fun r => restoreBlock transferId path r.1 r.2) := by
  rw [visit]
  simp only [bind, StateT.bind, Except.bind, hn, hr, hu, hs]
  trans StateT.bind (visit table template) (fun restored => restoreBlock transferId path restored) u
  · refine congrFun ?_ u
    split
    · rename_i found hf
      cases ht.symm.trans hf
      rfl
    · rename_i hf
      cases ht.symm.trans hf
  · rfl

structure InStep (table : Artifacts) (s : PrepareState) (t : VisitState) : Prop where
  references : t.references = s.artifacts.length
  expanded : t.expandedBytes = s.totalBytes
  cached : ∀ id d, t.cache.get? id = some d → ∃ buffer, table.get? id = some buffer ∧ d = buffer.materialise

theorem extract_ok {data : List UInt8} {reference : Json} (h : extract callId field data s = .ok (reference, s')) :
    s.artifacts.length < HostTools.maxArtifactTransfersPerCall ∧
      s.totalBytes + data.length ≤ HostTools.maxArtifactBytesPerCall ∧
    ∃ a : HostArtifact, a.data = data ∧ s'.artifacts = s.artifacts ++ [a] ∧ s'.totalBytes = s.totalBytes + data.length ∧
      reference = .obj [("type", .str "artifact_ref"), ("transfer_id", .str a.transferId),
        ("artifact_template", field.template), ("artifact_insert_path", .arr (field.insertPath.map .str))] := by
  simp only [extract] at h
  split_ifs at h with hmany hbig
  cases h
  exact ⟨Nat.lt_of_not_le hmany, Nat.le_of_not_lt hbig, _, rfl, rfl, rfl, rfl⟩

theorem extract_extracts (callId : String) (field : EncodedField) (data : List UInt8) (s : PrepareState)
    (hmany : s.artifacts.length < HostTools.maxArtifactTransfersPerCall)
    (hbig : s.totalBytes + data.length ≤ HostTools.maxArtifactBytesPerCall) (a : HostArtifact)
    (ha : a = ⟨transferIdOf callId s.index (Sha256.hexdigest data), field.mimeType, Sha256.hexdigest data, data⟩) :
    extract callId field data s = .ok (.obj [("type", .str "artifact_ref"), ("transfer_id", .str a.transferId),
        ("artifact_template", field.template), ("artifact_insert_path", .arr (field.insertPath.map .str))],
        { artifacts := s.artifacts ++ [a], totalBytes := s.totalBytes + data.length, index := s.index + 1 }) := by
  simp only [extract]
  rw [if_neg (Nat.not_le.mpr hmany), if_neg (Nat.not_lt.mpr hbig), ha]

theorem resolveReference_ok (ht : InStep table s t) {a : HostArtifact}
    (ha : Holds table a) (hmany : s.artifacts.length < HostTools.maxArtifactTransfersPerCall)
    (hbig : s.totalBytes + a.data.length ≤ HostTools.maxArtifactBytesPerCall) :
    ∃ u, resolveReference table a.transferId t = .ok ((), u) ∧ u.nodes = t.nodes ∧
      u.references = s.artifacts.length + 1 ∧ u.expandedBytes = s.totalBytes + a.data.length ∧
      (∀ id d, u.cache.get? id = some d → ∃ buffer, table.get? id = some buffer ∧ d = buffer.materialise) ∧
      ((u.cache.get? a.transferId).getD .null).field "data" = .str (b64encode a.data) := by
  obtain ⟨buffer, hfound, hcom, hdata, hsize⟩ := ha
  -- the gateway's bounds on references and on expanded bytes are the host's bounds
  have hrefs : ¬ s.artifacts.length + 1 > maxArtifactReferencesPerCall := Nat.not_lt.mpr hmany
  have hbyt : ¬ s.totalBytes + a.data.length > maxArtifactBytesPerCall := Nat.not_lt.mpr hbig
  rw [resolveReference, ht.references, ht.expanded, if_neg hrefs, hfound]
  simp only [hcom, hsize]
  rw [if_neg (by decide), if_neg hbyt]
  have hcac : ∀ id d, (if (t.cache.get? a.transferId).isSome then t.cache
      else t.cache.set a.transferId buffer.materialise).get? id = some d →
      ∃ buffer, table.get? id = some buffer ∧ d = buffer.materialise := by
    intro id d hd
    split at hd
    · exact ht.cached id d hd
    rw [Dict.get?_set] at hd
    split at hd
    · rename_i hid
      cases hd
      exact ⟨buffer, hid ▸ hfound, rfl⟩
    · exact ht.cached id d hd
  refine ⟨_, rfl, rfl, rfl, rfl, hcac, ?_⟩
  have hsome : ∃ d, (if (t.cache.get? a.transferId).isSome then t.cache
      else t.cache.set a.transferId buffer.materialise).get? a.transferId = some d := by
    split
    · rename_i hs
      exact isSome_iff_exists.mp hs
    · exact ⟨_, Dict.get?_set_self _ _ _⟩
  obtain ⟨d, hd⟩ := hsome
  obtain ⟨other, hoth, rfl⟩ := hcac _ _ hd
  cases hfound.symm.trans hoth
  simp only
  rw [hd, getD_some, ← hdata]
  rfl

/-- The gateway's walk over a reference gives back the block that the host's walk took out. -/
theorem visit_reference {rest : List (String × Json)} {data : List UInt8}
    (hspl : Splits raw field rest) (hu : Unmarked (.obj raw)) (hd : (Json.obj raw).KeysDistinct)
    {reference : Json} (h : extract callId field data s = .ok (reference, s'))
    (hA : ∀ a ∈ s'.artifacts, Holds table a) (ht : InStep table s t)
    (hn : t.nodes + (Json.obj raw).nodeCount ≤ maxArtifactResultNodes) :
    ∃ whole t', visit table reference t = .ok (plain whole, t') ∧
      whole.canon = (located (Json.setPath field.insertPath (.str (b64encode data)) (.obj raw))).canon ∧
      InStep table s' t' ∧ t'.nodes = t.nodes + (Json.obj raw).nodeCount := by
  obtain ⟨hmany, hbig, a, rfl, hart, hbyt, rfl⟩ := extract_ok h
  have hcou := hspl.nodes hd
  have ha : Holds table a := hA a (by rw [hart]; simp)
  have hnode : t.nodes + (1 + (Json.obj rest).nodeCount) ≤ maxArtifactResultNodes := by omega
  have hstep : InStep table s (t.after 1) := ⟨ht.references, ht.expanded, ht.cached⟩
  obtain ⟨u, hres, hnod, hrefs, hexp, hcach, henc⟩ := resolveReference_ok hstep ha hmany hbig
  have htem : visit table (.obj rest) u = .ok (plain (.obj rest), u.after (Json.obj rest).nodeCount) := by
    refine visit_plain table _ u (hspl.unmarked hu) ?_
    rw [hnod]
    simp only [after]
    omega
  obtain ⟨whole, hins, hwho⟩ := hspl.whole hd (b64encode a.data)
  obtain ⟨entries, hent⟩ : ∃ entries : List (String × Json), entries =
    [("type", .str "artifact_ref"), ("transfer_id", .str a.transferId), ("artifact_template", field.template),
      ("artifact_insert_path", .arr (field.insertPath.map .str))] := ⟨_, rfl⟩
  have hid : referenceId? entries = some a.transferId := by
    rw [hent]
    rfl
  have hgiv : get? entries "artifact_template" = some (.obj rest) := by
    rw [hent, hspl.template]
    rfl
  have hpath : get? entries "artifact_insert_path" = some (.arr (field.insertPath.map .str)) := by
    rw [hent]
    rfl
  have hsha : referenceShape entries = .templated field.insertPath := by
    rw [referenceShape, hgiv, hpath]
    simp only [getD_some, hspl.path]
  rw [← hent]
  refine ⟨located whole, u.after (Json.obj rest).nodeCount, ?_, hwho, ⟨?_, ?_, hcach⟩, ?_⟩
  · rw [visit_templated table hid hsha hgiv (visitNode_ok hnode) hres, htem]
    simp only [Except.bind, restoreBlock]
    have hcac : (u.after (Json.obj rest).nodeCount).cache = u.cache := rfl
    rw [hcac, henc, insertVisited_plain, hins]
    simp only [map_some, locateBlock_plain]
    rfl
  · rw [hart]
    rw [List.length_append]
    exact hrefs
  · rw [hbyt]
    exact hexp
  · simp only [after] at hnod ⊢
    omega

theorem prepare_arr {items : List Json} {p : Json} (h : HostTools.visit callId metadata (.arr items) s = .ok (p, s')) :
    ∃ ps, p = .arr ps ∧ HostTools.visitList callId metadata items s = .ok (ps, s') := by
  rw [HostTools.visit] at h
  obtain ⟨⟨ps, s₁⟩, hps, hp⟩ := bind_ok h
  cases hp
  exact ⟨ps, rfl, hps⟩

theorem prepare_obj (hl : largeField metadata raw = none)
    {p : Json} (h : HostTools.visit callId metadata (.obj raw) s = .ok (p, s')) :
    ∃ ps, p = .obj ps ∧ HostTools.visitEntries callId metadata raw s = .ok (ps, s') := by
  rw [HostTools.visit, hl] at h
  obtain ⟨⟨ps, s₁⟩, hps, hp⟩ := bind_ok h
  cases hp
  exact ⟨ps, rfl, hps⟩

theorem prepare_large {raw : List (String × Json)} {field : EncodedField} {data : List UInt8}
    (hl : largeField metadata raw = some (field, data)) (s : PrepareState) :
    HostTools.visit callId metadata (.obj raw) s = extract callId field data s := by
  rw [HostTools.visit, hl]

theorem prepareList_cons {j : Json} {js ps : List Json}
    (h : HostTools.visitList callId metadata (j :: js) s = .ok (ps, s')) :
    ∃ p qs s₁, ps = p :: qs ∧ HostTools.visit callId metadata j s = .ok (p, s₁) ∧
      HostTools.visitList callId metadata js s₁ = .ok (qs, s') := by
  rw [HostTools.visitList] at h
  obtain ⟨⟨p, s₁⟩, hp, h⟩ := bind_ok h
  obtain ⟨⟨qs, s₂⟩, hqs, h⟩ := bind_ok h
  cases h
  exact ⟨p, qs, s₁, rfl, hp, hqs⟩

theorem prepareEntries_cons {k : String} {j : Json} {ps : List (String × Json)}
    (h : HostTools.visitEntries callId metadata ((k, j) :: es) s = .ok (ps, s')) :
    ∃ p qs s₁, ps = (k, p) :: qs ∧ HostTools.visit callId metadata j s = .ok (p, s₁) ∧
      HostTools.visitEntries callId metadata es s₁ = .ok (qs, s') := by
  rw [HostTools.visitEntries] at h
  obtain ⟨⟨p, s₁⟩, hp, h⟩ := bind_ok h
  obtain ⟨⟨qs, s₂⟩, hqs, h⟩ := bind_ok h
  cases h
  exact ⟨p, qs, s₁, rfl, hp, hqs⟩

mutual

theorem prepare_extracts : ∀ (j : Json) {s s' : PrepareState} {p : Json},
    HostTools.visit callId metadata j s = .ok (p, s') → Extracts s s' (delivered metadata j = j)
  | .arr items, s, s', p, h => by
    obtain ⟨ps, _, hps⟩ := prepare_arr h
    exact (prepareList_extracts items hps).mono fun hsame => by rw [delivered, hsame]
  | .obj raw, s, s', p, h => by
    cases hl : largeField metadata raw with
    | none =>
      obtain ⟨ps, _, hps⟩ := prepare_obj hl h
      refine (prepareEntries_extracts raw hps).mono fun hsame => ?_
      rw [delivered, hl]
      simp only [hsame]
    | some large =>
      rw [prepare_large hl] at h
      obtain ⟨_, _, a, hdata, ha, _⟩ := extract_ok h
      refine ⟨[a], ha, fun b hb => ?_, fun hemp => (nomatch hemp)⟩
      rw [List.mem_singleton.mp hb, hdata]
      exact (largeField_splits hl).2
  | .null, s, _, _, h | .bool _, s, _, _, h | .int _, s, _, _, h | .float _, s, _, _, h |
    .str _, s, _, _, h => by
      cases h
      exact Extracts.refl s rfl

theorem prepareList_extracts : ∀ (js : List Json) {s s' : PrepareState} {ps : List Json},
    HostTools.visitList callId metadata js s = .ok (ps, s') → Extracts s s' (deliveredList metadata js = js)
  | [], s, _, _, h => by
    cases h
    exact Extracts.refl s rfl
  | j :: js, s, s', ps, h => by
    obtain ⟨p, qs, s₁, _, hp, hqs⟩ := prepareList_cons h
    refine ((prepare_extracts j hp).trans (prepareList_extracts js hqs)).mono fun hsame => ?_
    rw [deliveredList, hsame.1, hsame.2]

theorem prepareEntries_extracts : ∀ (es : List (String × Json)) {s s' : PrepareState}
    {ps : List (String × Json)}, HostTools.visitEntries callId metadata es s = .ok (ps, s') →
    Extracts s s' (deliveredEntries metadata es = es)
  | [], s, _, _, h => by
    cases h
    exact Extracts.refl s rfl
  | (k, j) :: es, s, s', ps, h => by
    obtain ⟨p, qs, s₁, _, hp, hqs⟩ := prepareEntries_cons h
    refine ((prepare_extracts j hp).trans (prepareEntries_extracts es hqs)).mono fun hsame => ?_
    rw [deliveredEntries, hsame.1, hsame.2]

end

def text? : Json → Option String
  | .str s => some s
  | _ => none

omit [Sha256] in
theorem referenceId?_eq (es : List (String × Json)) : referenceId? es =
    if (Assoc.get? es "type").bind text? = some "artifact_ref" then (Assoc.get? es "transfer_id").bind text?
    else none := by
  rw [referenceId?.eq_def]
  cases get? es "type" with
  | none => rfl
  | some j =>
    cases j with
    | str s =>
      by_cases hs : s = "artifact_ref"
      · subst hs
        cases get? es "transfer_id" with
        | none => rfl
        | some i => cases i <;> rfl
      · simp [text?, hs]
    | _ => rfl

theorem prepareEntries_text {ps : List (String × Json)}
    (h : HostTools.visitEntries callId metadata es s = .ok (ps, s')) (k : String) :
    (Assoc.get? ps k).bind text? = (Assoc.get? es k).bind text? := by
  induction es generalizing ps s with
  | nil =>
    cases h
    rfl
  | cons e es ih =>
    obtain ⟨i, j⟩ := e
    obtain ⟨p, qs, s₁, rfl, hp, hqs⟩ := prepareEntries_cons h
    rw [get?_cons, get?_cons]
    split
    · cases j with
      | arr items =>
        obtain ⟨_, rfl, _⟩ := prepare_arr hp
        rfl
      | obj raw =>
        cases hl : largeField metadata raw with
        | none =>
          obtain ⟨_, rfl, _⟩ := prepare_obj hl hp
          rfl
        | some large =>
          rw [prepare_large hl] at hp
          obtain ⟨_, _, _, _, _, _, rfl⟩ := extract_ok hp
          rfl
      | _ =>
        cases hp
        rfl
    · exact ih hqs

def Restores {α : Type} (table : Artifacts) (s' : PrepareState) (t : VisitState) (nodes : Nat)
    (visited : Except ClientCapabilityError (α × VisitState)) (arrives : α → Prop) : Prop :=
  ∃ v t', visited = .ok (v, t') ∧ arrives v ∧ InStep table s' t' ∧ t'.nodes = t.nodes + nodes

omit [Sha256] in
theorem canon_obj_of_entries {fs : List (String × Json)} (h : Json.canonEntries es = Json.canonEntries fs) :
    (Json.obj es).canon = (Json.obj fs).canon := by
  rw [Json.canon, Json.canon, h]

mutual

theorem visit_restores : ∀ (j : Json) {s s' : PrepareState} {p : Json} {t : VisitState}, Unmarked j →
    j.KeysDistinct → HostTools.visit callId metadata j s = .ok (p, s') →
    (∀ a ∈ s'.artifacts, Holds table a) → InStep table s t → t.nodes + j.nodeCount ≤ maxArtifactResultNodes →
    Restores table s' t j.nodeCount (visit table p t)
      (fun v => ∀ cache, (v.read cache).canon = (delivered metadata j).canon)
  | .arr items, s, s', p, t, hu, hd, h, hA, ht, hn => by
    obtain ⟨ps, rfl, hps⟩ := prepare_arr h
    rw [Json.nodeCount] at hn
    have hafter : InStep table s (t.after 1) := ⟨ht.references, ht.expanded, ht.cached⟩
    obtain ⟨vs, t', hv, hread, hstep, hnod⟩ := visitList_restores items hu hd hps hA hafter
      (by simp only [after]; omega)
    refine ⟨.arr vs, t', ?_, fun cache => ?_, hstep, ?_⟩
    · rw [visit_arr table ps (visitNode_ok hn), hv]
      rfl
    · rw [Visited.read, delivered, Json.canon, Json.canon, hread cache]
    rw [hnod, Json.nodeCount]
    simp only [after]
    omega
  | .obj raw, s, s', p, t, hu, hd, h, hA, ht, hn => by
    cases hl : largeField metadata raw with
    | none =>
      obtain ⟨ps, rfl, hps⟩ := prepare_obj hl h
      rw [Json.nodeCount] at hn
      have hafter : InStep table s (t.after 1) := ⟨ht.references, ht.expanded, ht.cached⟩
      obtain ⟨vs, t', hv, hread, hstep, hnod⟩ := visitEntries_restores raw hu.2 hd.2 hps hA hafter
        (by simp only [after]; omega)
      have href : referenceId? ps = none := by
        rw [referenceId?_eq, prepareEntries_text hps, prepareEntries_text hps, ← referenceId?_eq]
        exact hu.1
      refine ⟨.obj vs, t', ?_, fun cache => ?_, hstep, ?_⟩
      · rw [visit_obj table href (visitNode_ok hn), hv]
        rfl
      · rw [Visited.read, delivered, hl]
        exact canon_obj_of_entries (hread cache)
      rw [hnod, Json.nodeCount]
      simp only [after]
      omega
    | some large =>
      obtain ⟨⟨rest, hspl⟩, _⟩ := largeField_splits hl
      rw [prepare_large hl] at h
      obtain ⟨whole, t', hv, hwho, hstep, hnod⟩ := visit_reference hspl hu hd h hA ht hn
      refine ⟨plain whole, t', hv, fun cache => ?_, hstep, hnod⟩
      rw [read_plain, hwho, delivered, hl]
  | .null, s, s', p, t, _, _, h, _, ht, hn | .bool _, s, s', p, t, _, _, h, _, ht, hn
  | .int _, s, s', p, t, _, _, h, _, ht, hn | .float _, s, s', p, t, _, _, h, _, ht, hn
  | .str _, s, s', p, t, _, _, h, _, ht, hn => by
    cases h
    exact ⟨_, t.after 1, visit_leaf (by simp) (by simp) (visitNode_ok (n := 0) hn), fun _ => rfl,
      ⟨ht.references, ht.expanded, ht.cached⟩, rfl⟩

theorem visitList_restores : ∀ (js : List Json) {s s' : PrepareState} {ps : List Json} {t : VisitState},
    Json.EverywhereList (fun entries => referenceId? entries = none) js →
    Json.EverywhereList (fun entries => (entries.map Prod.fst).Nodup) js →
    HostTools.visitList callId metadata js s = .ok (ps, s') → (∀ a ∈ s'.artifacts, Holds table a) →
    InStep table s t → t.nodes + Json.nodeCountList js ≤ maxArtifactResultNodes →
    Restores table s' t (Json.nodeCountList js) (visitList table ps t)
      (fun vs => ∀ cache, Json.canonList (readList cache vs) = Json.canonList (deliveredList metadata js))
  | [], s, s', ps, t, _, _, h, _, ht, _ => by
    cases h
    rw [visitList]
    exact ⟨[], t, rfl, fun _ => rfl, ht, rfl⟩
  | j :: js, s, s', ps, t, hu, hd, h, hA, ht, hn => by
    obtain ⟨p, qs, s₁, rfl, hp, hqs⟩ := prepareList_cons h
    rw [Json.nodeCountList] at hn
    have hsub := (prepareList_extracts js hqs).subset
    obtain ⟨v, t₁, hv, hread, hstep, hnod⟩ := visit_restores j hu.1 hd.1 hp (fun a ha => hA a (hsub a ha)) ht (by omega)
    obtain ⟨vs, t', hvs, hrea, hstep', hnod'⟩ := visitList_restores js hu.2 hd.2 hqs hA hstep (by omega)
    refine ⟨v :: vs, t', ?_, fun cache => ?_, hstep', ?_⟩
    · rw [visitList_cons table p qs hv, hvs]
      rfl
    · rw [readList, deliveredList, Json.canonList, Json.canonList, hread cache, hrea cache]
    · rw [hnod', hnod, Json.nodeCountList]
      omega

theorem visitEntries_restores : ∀ (es : List (String × Json)) {s s' : PrepareState}
    {ps : List (String × Json)} {t : VisitState},
    Json.EverywhereEntries (fun entries => referenceId? entries = none) es →
    Json.EverywhereEntries (fun entries => (entries.map Prod.fst).Nodup) es →
    HostTools.visitEntries callId metadata es s = .ok (ps, s') → (∀ a ∈ s'.artifacts, Holds table a) →
    InStep table s t → t.nodes + Json.nodeCountEntries es ≤ maxArtifactResultNodes →
    Restores table s' t (Json.nodeCountEntries es) (visitEntries table ps t) (fun vs => ∀ cache,
        Json.canonEntries (readEntries cache vs) = Json.canonEntries (deliveredEntries metadata es))
  | [], s, s', ps, t, _, _, h, _, ht, _ => by
    cases h
    rw [visitEntries]
    exact ⟨[], t, rfl, fun _ => rfl, ht, rfl⟩
  | (k, j) :: es, s, s', ps, t, hu, hd, h, hA, ht, hn => by
    obtain ⟨p, qs, s₁, rfl, hp, hqs⟩ := prepareEntries_cons h
    rw [Json.nodeCountEntries] at hn
    have hsub := (prepareEntries_extracts es hqs).subset
    obtain ⟨v, t₁, hv, hread, hstep, hnod⟩ := visit_restores j hu.1 hd.1 hp (fun a ha => hA a (hsub a ha)) ht (by omega)
    obtain ⟨vs, t', hvs, hrea, hstep', hnod'⟩ := visitEntries_restores es hu.2 hd.2 hqs hA hstep (by omega)
    refine ⟨(k, v) :: vs, t', ?_, fun cache => ?_, hstep', ?_⟩
    · rw [visitEntries_cons table k p qs hv, hvs]
      rfl
    · rw [readEntries, deliveredEntries, Json.canonEntries, Json.canonEntries, hread cache, hrea cache]
    · rw [hnod', hnod, Json.nodeCountEntries]
      omega

end

end Walks

def resultMeta (result : Json) : Json :=
  if (result.field "_meta").isObj then result.field "_meta" else .obj []

section RoundTrip

variable [Sha256]

/-- A result without reference-like objects, whose artifacts were all accepted, arrives as it was sent. -/
theorem artifact_round_trip (callId : String) (generation : Int) (result : Json.Doc) (prepared : Json)
    (sent : List HostArtifact) (frames : List (DeclaredSizes × ChunkFrame)) (table : Artifacts)
    (hprepare : prepareResultArtifacts callId result.json = .ok (prepared, sent))
    (hframes : frames.map Prod.snd = sent.flatMap (sendArtifact callId generation))
    (hreceive : receiveChunks Dict.empty frames = .ok table)
    (hunmarked : Unmarked result.json) (hnodes : result.json.nodeCount ≤ maxArtifactResultNodes) :
    ∃ arrived, materialiseArtifactRefs prepared table = .ok arrived ∧
      arrived.canon = (delivered (resultMeta result.json) result.json).canon := by
  rw [prepareResultArtifacts] at hprepare
  change Except.map _ (HostTools.visit callId (resultMeta result.json) result.json {}) = _ at hprepare
  cases hvis : HostTools.visit callId (resultMeta result.json) result.json {} with
  | error e =>
    rw [hvis] at hprepare
    cases hprepare
  | ok walked =>
    obtain ⟨p, s⟩ := walked
    obtain ⟨new, hnew, hlar, hsame⟩ := prepare_extracts result.json hvis
    rw [List.nil_append] at hnew
    rw [hvis] at hprepare
    simp only [Except.map, Except.ok.injEq] at hprepare
    by_cases hemp : s.artifacts = []
    · -- nothing was extracted: the result travels as it is
      rw [if_pos hemp] at hprepare
      cases hprepare
      have hpla := visit_plain table result.json {} hunmarked (by simpa using hnodes)
      refine ⟨result.json, ?_, by rw [hsame (hnew ▸ hemp)]⟩
      rw [materialiseArtifactRefs, hpla]
      exact congrArg ok (read_plain _ _)
    rw [if_neg hemp] at hprepare
    cases hprepare
    have hdata : ∀ a ∈ s.artifacts, a.data ≠ [] := by
      intro a ha hnil
      have hlen := hlar a (hnew ▸ ha)
      rw [hnil] at hlen
      exact absurd hlen (by decide)
    obtain ⟨hhol, _⟩ := sendArtifacts_arrive hdata hframes (fun _ _ hk => by cases hk) hreceive
    have hsta : InStep table {} {} := ⟨rfl, rfl, fun _ _ hd => by cases hd⟩
    obtain ⟨v, t, hv, hread, _, _⟩ := visit_restores result.json hunmarked result.distinct hvis hhol hsta
      (by simpa using hnodes)
    refine ⟨v.read t.cache, ?_, hread t.cache⟩
    rw [materialiseArtifactRefs, hv]
    rfl

end RoundTrip

def echoed : Json := .obj [("echo", .obj [("type", .str "artifact_ref"), ("transfer_id", .str "x")])]

theorem echoed_distinct : echoed.KeysDistinct :=
  ⟨by decide, ⟨by decide, trivial, trivial, trivial⟩, trivial⟩

theorem artifact_reference_refused : ¬ ∀ (callId : String) (generation : Int) (result : Json.Doc) (prepared : Json)
    (sent : List HostArtifact) (frames : List (DeclaredSizes × ChunkFrame)) (table : Artifacts),
    @prepareResultArtifacts ⟨fun _ => ""⟩ callId result.json = .ok (prepared, sent) →
    frames.map Prod.snd = sent.flatMap (sendArtifact callId generation) →
    @receiveChunks ⟨fun _ => ""⟩ Dict.empty frames = .ok table →
    result.json.nodeCount ≤ maxArtifactResultNodes →
    ∃ arrived, @materialiseArtifactRefs ⟨fun _ => ""⟩ prepared table = .ok arrived ∧
      arrived.canon = (delivered (resultMeta result.json) result.json).canon := by
  intro h
  have hpre : @prepareResultArtifacts ⟨fun _ => ""⟩ "call" echoed = .ok (echoed, []) := rfl
  have hrefu : (@materialiseArtifactRefs ⟨fun _ => ""⟩ echoed Dict.empty).toOption = none := by
    decide +kernel
  obtain ⟨arrived, ha, _⟩ := h "call" 1 ⟨echoed, echoed_distinct⟩ echoed [] [] Dict.empty hpre rfl rfl (by decide)
  rw [ha] at hrefu
  cases hrefu

@[irreducible] def blackPixels : List UInt8 := List.replicate artifactThresholdBytes 0

def blackImage : Json := .obj [("type", .str "image"), ("data", .str (b64encode blackPixels))]

abbrev pixelDigest : Sha256 :=
  ⟨fun bytes => if bytes = blackPixels then
    "8a39d2abd3999ab73c34db2476849cddf303ce389b35826850f9a700589b4a90" else ""⟩

def pixelArtifact : HostArtifact :=
  ⟨"call-0-8a39d2abd399", "application/octet-stream",
    "8a39d2abd3999ab73c34db2476849cddf303ce389b35826850f9a700589b4a90", blackPixels⟩

theorem blackPixels_length : blackPixels.length = artifactThresholdBytes := by
  rw [blackPixels]
  exact List.length_replicate

theorem blackPixels_digest : @Sha256.hexdigest pixelDigest blackPixels = pixelArtifact.sha256 := if_pos rfl

theorem blackImage_large : largeField (.obj []) [("type", .str "image"), ("data", .str (b64encode blackPixels))] =
    some (⟨b64encode blackPixels, "application/octet-stream", .obj [("type", .str "image")], ["data"]⟩,
      blackPixels) := by
  have hfie : encodedField (.obj []) [("type", .str "image"), ("data", .str (b64encode blackPixels))] =
      some ⟨b64encode blackPixels, "application/octet-stream", .obj [("type", .str "image")], ["data"]⟩ := rfl
  have hne : blackPixels ≠ [] := by
    intro h
    have hl := blackPixels_length
    rw [h] at hl
    cases hl
  rw [largeField, hfie, bind_some, decodeBase64_encode hne, bind_some, blackPixels_length, if_pos le_rfl]

theorem pixelArtifact_eq : pixelArtifact =
    ⟨transferIdOf "call" ({} : PrepareState).index (@Sha256.hexdigest pixelDigest blackPixels),
      "application/octet-stream", @Sha256.hexdigest pixelDigest blackPixels, blackPixels⟩ := by
  have hid : transferIdOf "call" ({} : PrepareState).index pixelArtifact.sha256 = pixelArtifact.transferId := by
    decide +kernel
  rw [blackPixels_digest, hid]
  rfl

theorem blackImage_prepared : @prepareResultArtifacts pixelDigest "call" blackImage = .ok
    (.obj [("type", .str "artifact_ref"), ("transfer_id", .str pixelArtifact.transferId),
      ("artifact_template", .obj [("type", .str "image")]), ("artifact_insert_path", .arr [.str "data"])],
      [pixelArtifact]) := by
  have hbig : ({} : PrepareState).totalBytes + blackPixels.length ≤ HostTools.maxArtifactBytesPerCall := by
    rw [blackPixels_length]
    decide
  have hvis := @extract_extracts pixelDigest "call"
    ⟨b64encode blackPixels, "application/octet-stream", .obj [("type", .str "image")], ["data"]⟩ blackPixels {}
    (by decide) hbig _ pixelArtifact_eq
  rw [← @prepare_large pixelDigest _ _ _ _ _ blackImage_large] at hvis
  change Except.map _ (@HostTools.visit pixelDigest "call" (.obj []) blackImage {}) = _
  rw [blackImage, hvis]
  rfl

theorem pixelArtifact_received : ∃ table, @receiveChunks pixelDigest Dict.empty
    [(⟨0, 0, 0⟩, artifactFrame "call" 1 pixelArtifact 0)] = .ok table := by
  have hlen : pixelArtifact.data.length = artifactThresholdBytes := blackPixels_length
  have hdig : @Sha256.hexdigest pixelDigest pixelArtifact.data = lower pixelArtifact.sha256 := by
    have hlow : lower pixelArtifact.sha256 = pixelArtifact.sha256 := by decide +kernel
    rw [hlow]
    exact blackPixels_digest
  apply @artifactFrame_accepted pixelDigest "call" 1 pixelArtifact (by decide) (by decide) (by decide +kernel)
    (by decide) (by decide +kernel) hdig
  · rw [hlen]
    decide
  · rw [hlen]
    decide

theorem pixelArtifact_sent : sendArtifact "call" 1 pixelArtifact = [artifactFrame "call" 1 pixelArtifact 0] := by
  have hcou : (pixelArtifact.data.length + artifactChunkBytes - 1) / artifactChunkBytes = 1 := by
    have hdata : pixelArtifact.data = blackPixels := rfl
    rw [hdata, blackPixels_length]
    decide
  rw [sendArtifact, hcou]
  rfl

theorem artifact_round_trip_image : ∃ prepared table arrived,
    @prepareResultArtifacts pixelDigest "call" blackImage = .ok (prepared, [pixelArtifact]) ∧
      @materialiseArtifactRefs pixelDigest prepared table = .ok arrived ∧
      arrived.canon = (delivered (resultMeta blackImage) blackImage).canon := by
  obtain ⟨table, htab⟩ := pixelArtifact_received
  have hfra : [((⟨0, 0, 0⟩ : DeclaredSizes), artifactFrame "call" 1 pixelArtifact 0)].map Prod.snd =
      [pixelArtifact].flatMap (sendArtifact "call" 1) := by
    rw [List.flatMap_singleton, pixelArtifact_sent]
    rfl
  obtain ⟨arrived, ha, hsame⟩ := @artifact_round_trip pixelDigest "call" 1 ⟨blackImage, by decide, trivial, trivial, trivial⟩ _ _ _
    table blackImage_prepared hfra htab ⟨rfl, trivial, trivial, trivial⟩ (by decide)
  exact ⟨_, table, arrived, blackImage_prepared, ha, hsame⟩

end OpenAgent.Gateway
