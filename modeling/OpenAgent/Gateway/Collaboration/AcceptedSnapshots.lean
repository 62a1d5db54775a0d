import OpenAgent.Gateway.Collaboration.Convergence
import OpenAgent.Gateway.Collaboration.SnapshotParts

namespace OpenAgent.Gateway.Collaboration

open Py Py.Json List Option Projection

def shownAt (clock : Clock) (updatedAt : Option Int) : Nat :=
  (updatedAt.map fun now => jsonLength (.float (clock.seconds now))).getD 0

structure Fits (clock : Clock) (p : Projection) : Prop where
  sound : p.Sound
  revision : p.revision ≤ 9007199254740991
  turns : ∀ sid s, p.sessions.get? sid = some s → ∀ t ∈ s.turns, t.Valid
  room : ∀ sid s, p.sessions.get? sid = some s → turnsLength s.turns + envelope sid (shownAt clock s.updatedAt) ≤ LIMIT

variable {sid : String}

theorem length_identifier (h : isIdentifier sid = true) : sid.toList.length ≤ 128 := by
  rw [isIdentifier] at h
  split at h
  · cases h
  next c cs hcs =>
    simp only [Bool.and_eq_true, decide_eq_true_eq] at h
    rw [hcs, length_cons]
    omega

variable {clock : Clock} {p : Projection}

theorem Fits.accepted (h : Fits clock p)
    (hsid : isIdentifier sid = true) : clientAccepts (sharedState clock.seconds sid (p.stateFor sid)) = true := by
  rw [stateFor]
  cases hget : p.sessions.get? sid with
  | none =>
    have hsho : textLength sid ≤ 12 * 128 :=
      (textLength_le sid).trans (Nat.mul_le_mul_left 12 (length_identifier hsid))
    refine accepted_of_valid clock hsid (forall_mem_nil _) (Nat.zero_le _) h.revision ?_
    simp only [turnsLength_nil, envelope, LIMIT, map_none, getD_none]
    omega
  | some s =>
    exact accepted_of_valid clock hsid (h.turns sid s hget) (h.sound.shaped sid s hget).bounded
      ((h.sound.stamped sid s hget).trans h.revision) (h.room sid s hget)

/-- What pruning leaves: some of the sessions as they were, and a counter that counts the others. -/
structure Pruned (p q : Projection) : Prop where
  kept : ∀ sid s, q.sessions.get? sid = some s → p.sessions.get? sid = some s

theorem pruned_prune (p : Projection) (now : Int) :
    Pruned p (p.prune now) ∧ (p.prune now).revision ≤ p.revision + p.sessions.size := by
  have hone : ∀ (q : Projection) (e : String × Session), Pruned q (q.pruneOne now e) ∧
      (q.pruneOne now e).revision ≤ q.revision + 1 := by
    intro q e
    rw [pruneOne]
    split
    · refine ⟨⟨fun sid s hs => ?_⟩, Nat.le_refl _⟩
      rw [Dict.get?_erase] at hs
      split at hs
      · cases hs
      · exact hs
    · exact ⟨⟨fun _ _ hs => hs⟩, Nat.le_succ _⟩
  have hfold : ∀ (es : List (String × Session)) (q : Projection), Pruned q (es.foldl (pruneOne now) q) ∧
      (es.foldl (pruneOne now) q).revision ≤ q.revision + es.length := by
    intro es
    induction es with
    | nil => exact fun q => ⟨⟨fun _ _ hs => hs⟩, Nat.le_refl _⟩
    | cons e es ih =>
      intro q
      obtain ⟨hkept, hrev⟩ := ih (q.pruneOne now e)
      have he := hone q e
      refine ⟨⟨fun sid s hs => he.1.kept sid s (hkept.kept sid s hs)⟩, ?_⟩
      rw [foldl_cons, length_cons]
      omega
  exact hfold p.sessions.entries p

def Counting (p : Projection) : Prop := p.revision + p.sessions.size + 2 ≤ 9007199254740991

theorem Fits.prune (h : Fits clock p) (hcou : Counting p) (now : Int) : Fits clock (p.prune now) := by
  obtain ⟨hkept, hrev⟩ := pruned_prune p now
  rw [Counting] at hcou
  exact {
    sound := h.sound.prune now
    revision := by omega
    turns := fun sid s hs => h.turns sid s (hkept.kept sid s hs)
    room := fun sid s hs => h.room sid s (hkept.kept sid s hs) }

def Room (clock : Clock) (r : Tick) (sid : String) (taken : Nat) : Prop :=
  taken + margin r.toReading + envelope sid (jsonLength (.float (clock.seconds r.now))) ≤ LIMIT

instance (clock : Clock) (r : Tick) (sid : String) (taken : Nat) : Decidable (Room clock r sid taken) :=
  inferInstanceAs (Decidable (_ ≤ _))

theorem Fits.changed (h : Fits clock p) {s : Session} (now : Int) (hrev : p.revision + 1 ≤ 9007199254740991)
    (hsha : ∀ revision updatedAt, (Session.mk s.turns revision updatedAt).Shaped) (htur : ∀ t ∈ s.turns, t.Valid)
    (hroom : turnsLength s.turns + envelope sid (jsonLength (.float (clock.seconds now))) ≤ LIMIT) :
    Fits clock (p.changed sid s now) := by
  refine ⟨h.sound.changed sid now hsha, hrev, ?_, ?_⟩
  · intro j t hj
    rw [Projection.changed, Dict.get?_set] at hj
    split at hj
    · cases hj
      exact htur
    · exact h.turns j t hj
  intro j t hj
  rw [Projection.changed, Dict.get?_set] at hj
  split at hj
  · next hsid =>
      cases hj
      rw [hsid]
      exact hroom
  · exact h.room j t hj

def Projection.turnsAt (p : Projection) (now : Int) (sid : String) : List Turn :=
  (((p.prune now).sessions.get? sid).map Session.turns).getD []

/-- The capacity that `begin` asks for. -/
def Projection.Opens (p : Projection) (now : Int) (sid : String) : Prop :=
  ((p.prune now).sessions.get? sid).isSome = true ∨ (p.prune now).sessions.size < 128

instance (p : Projection) (now : Int) (sid : String) : Decidable (p.Opens now sid) :=
  inferInstanceAs (Decidable (_ ∨ _))

def bringsTo (codec : Codec) (f : Frame) (turns : List Turn) : Nat :=
  (turns.getLast?.map fun t => t.brings codec f).getD 0

/-- The session that `begin` leaves. -/
def Projection.begun (p : Projection) (r : Reading) (sid : String) (turn : Turn) : Projection :=
  let s := ((p.prune r.now).sessions.get? sid).getD { turns := [], revision := 0 }
  (p.prune r.now).changed sid { s with turns := turnsWith s.turns r turn } r.now

theorem begin_eq (p : Projection) (r : Reading) (sid text : String) (author : Json) (runId : Option String) :
    (p.Opens r.now sid → p.begin r sid text author runId = (true, p.begun r sid (Turn.opened r text author runId))) ∧
      (¬ p.Opens r.now sid → p.begin r sid text author runId = (false, p.prune r.now)) := by
  have hiff : ((((p.prune r.now).sessions.get? sid).isNone && (p.prune r.now).sessions.size ≥ 128) = true) ↔
      ¬ p.Opens r.now sid := by
    rw [Projection.Opens, Bool.and_eq_true, decide_eq_true_eq, not_or, not_lt, ← not_isSome, Bool.not_eq_true',
      Bool.not_eq_true]
  rw [begin]
  constructor
  · intro h
    rw [if_neg (fun hb => hiff.mp hb h)]
    rfl
  · intro h
    rw [if_pos (hiff.mpr h)]

theorem turns_begun (p : Projection) (r : Reading) (sid : String) :
    (((p.prune r.now).sessions.get? sid).getD { turns := [], revision := 0 }).turns = p.turnsAt r.now sid := by
  rw [turnsAt]
  cases (p.prune r.now).sessions.get? sid <;> rfl

theorem mem_turnsWith {turns : List Turn} {r : Reading} {turn t : Turn} (h : t ∈ Projection.turnsWith turns r turn) :
    t = turn ∨ ∃ old ∈ turns, t = old ∨ t = old.close r.time := by
  rcases mem_append.mp h with h | h
  · have hm := mem_of_mem_drop h
    rw [modifyLast] at hm
    split at hm
    · next last hlast =>
        rcases mem_append.mp hm with hm | hm
        · exact .inr ⟨t, dropLast_subset _ hm, .inl rfl⟩
        refine .inr ⟨last, mem_of_getLast? hlast, ?_⟩
        rw [mem_singleton.mp hm]
        split
        · exact .inr rfl
        · exact .inl rfl
    · cases hm
  · exact .inl (mem_singleton.mp h)

theorem Fits.begun (h : Fits clock p) (hcou : Counting p) (r : Tick) {turn : Turn} (hturn : turn.Valid)
    (hroom : Room clock r sid (turnsLength (staying (p.turnsAt r.now sid)) + entriesLength turn.entries)) :
    Fits clock (p.begun r.toReading sid turn) := by
  have hpru := h.prune hcou r.now
  have hrev := (pruned_prune p r.now).2
  have hlen := turnsLength_turnsWith (p.turnsAt r.now sid) r.toReading turn
  have hold : ∀ t ∈ p.turnsAt r.now sid, t.Valid ∧ (t ∈ (p.turnsAt r.now sid).dropLast → t.active = false) := by
    intro t ht
    rw [turnsAt] at ht ⊢
    cases hget : (p.prune r.now).sessions.get? sid with
    | none => rw [hget] at ht; cases ht
    | some s =>
      rw [hget] at ht
      exact ⟨hpru.turns sid s hget t ht, (hpru.sound.shaped sid s hget).settled t⟩
  rw [Counting] at hcou
  rw [Room, margin] at hroom
  rw [Projection.begun, turns_begun]
  refine hpru.changed r.now (by omega) ?_ ?_ ?_
  · exact fun _ _ => shaped_turnsWith (fun t ht => (hold t (dropLast_subset _ ht)).2 ht) _ _ _ _
  · intro t ht
    rcases mem_turnsWith ht with rfl | ⟨old, hmem, rfl | rfl⟩
    · exact hturn
    · exact (hold _ hmem).1
    · exact (hold old hmem).1.close r
  · dsimp only
    omega

variable {codec : PyCodec}

variable {f : Frame}

theorem Fits.record (h : Fits clock p) (r : Tick)
    (hpla : f.Plain codec.toCodec) (hrev : p.revision + 1 ≤ 9007199254740991)
    (hroom : ∀ s, p.sessions.get? sid = some s → turnsLength s.turns + bringsTo codec.toCodec f s.turns +
      (jsonLength (.float r.time) + 200) + envelope sid (jsonLength (.float (clock.seconds r.now))) ≤ LIMIT) :
    Fits clock (p.record codec.toCodec r.toReading sid f) := by
  rw [Projection.record]
  cases hget : p.sessions.get? sid with
  | none => exact h
  | some s =>
    have hlen := turnsLength_modifyLast s.turns (fun t => t.record codec.toCodec r.toReading f)
      (bringsTo codec.toCodec f s.turns + (jsonLength (.float r.time) + 200)) (fun t ht => by
        have hrec := length_record t codec.toCodec r.toReading f
        simp only [bringsTo, ht, map_some, getD_some]
        omega)
    have hfits := hroom s hget
    refine h.changed r.now hrev ?_ ?_ (by dsimp only; omega)
    · intro revision updatedAt
      obtain ⟨hne, hle, hset⟩ := (h.sound.shaped sid s hget).modifyLast (fun t => t.record codec.toCodec r.toReading f)
      exact ⟨hne, hle, hset⟩
    intro t ht
    rw [modifyLast] at ht
    split at ht
    · next last hlast =>
        rcases mem_append.mp ht with ht | ht
        · exact h.turns sid s hget t (dropLast_subset _ ht)
        · rw [mem_singleton.mp ht]
          exact (h.turns sid s hget last (mem_of_getLast? hlast)).record r hpla
    · cases ht

theorem Fits.congr {q : Projection} (h : Fits clock p)
    (hget : ∀ sid, q.sessions.get? sid = p.sessions.get? sid) (hrev : q.revision = p.revision) : Fits clock q where
  sound := ⟨fun sid s hs => h.sound.shaped sid s (hget sid ▸ hs),
    fun sid s hs => hrev ▸ h.sound.stamped sid s (hget sid ▸ hs)⟩
  revision := hrev ▸ h.revision
  turns := fun sid s hs => h.turns sid s (hget sid ▸ hs)
  room := fun sid s hs => h.room sid s (hget sid ▸ hs)

theorem modifyLast_turnsWith (g : Turn → Turn) (turns : List Turn) (r : Reading) (turn : Turn) :
    modifyLast g (Projection.turnsWith turns r turn) = Projection.turnsWith turns r (g turn) := by
  simp only [turnsWith, modifyLast, List.getLast?_concat, dropLast_concat]

theorem run_eq (p : Projection) (r : Reading) (q : TurnRequest) :
    (p.Opens r.now q.sid → (∀ sid, (p.run r q).sessions.get? sid =
        (p.begun r q.sid ((Turn.opened r q.text q.author.json (some q.requestId)).started q)).sessions.get? sid) ∧
      (p.run r q).revision =
        (p.begun r q.sid ((Turn.opened r q.text q.author.json (some q.requestId)).started q)).revision) ∧
    (¬ p.Opens r.now q.sid → p.run r q = p.prune r.now) := by
  obtain ⟨hope, hshut⟩ := begin_eq p r q.sid q.text q.author.json (some q.requestId)
  constructor
  · intro h
    have hget : ∀ turn, (p.begun r q.sid turn).sessions.get? q.sid = some
        { turns := turnsWith (p.turnsAt r.now q.sid) r turn
          revision := (p.prune r.now).revision + 1
          updatedAt := some r.now } := by
      intro turn
      rw [begun, turns_begun, changed, Dict.get?_set_self]
    rw [run, hope h]
    simp only [if_true, hget, modifyLast_turnsWith]
    refine ⟨fun sid => ?_, rfl⟩
    rw [Dict.get?_set]
    split
    · next hsid => rw [hsid, hget]
    next hsid =>
      rw [begun, begun, changed, changed]
      rw [Dict.get?_set_of_ne _ _ hsid, Dict.get?_set_of_ne _ _ hsid]
  · intro h
    rw [run, hshut h]
    rfl

def Author.Shown (a : Author) : Prop :=
  unitsOf a.userId ≤ 1024 ∧ unitsOf a.display ≤ 1024 ∧ ∃ handle ∈ a.handle, unitsOf handle ≤ 1024

instance (a : Author) : Decidable a.Shown :=
  inferInstanceAs (Decidable (_ ∧ _ ∧ ∃ handle ∈ a.handle, _))

theorem Author.Shown.fit {a : Author} (h : a.Shown) : AuthorFit a.json := by
  obtain ⟨huser, hdis, handle, hhan, huni⟩ := h
  intro _
  have hsome : a.handle = some handle := hhan
  rw [Author.json, hsome]
  constructor
  · right
    cases a.agent <;> simp [validAuthor, prop, idJson, isTextOf, huser, hdis, huni]
  · cases a.agent <;> rfl

def TurnClear (clock : Clock) (p : Projection) (r : Tick) (q : TurnRequest) : Prop :=
  p.Opens r.now q.sid → (q.text ≠ "" → q.author.Shown) ∧ (∀ j ∈ q.attachments, j.finite = true) ∧
    Room clock r q.sid (turnsLength (staying (p.turnsAt r.now q.sid)) +
      entriesLength ((Turn.opened r.toReading q.text q.author.json (some q.requestId)).started q).entries)

def SeedClear (clock : Clock) (p : Projection) (r : Tick) (sid text : String) (author : Json) (brings : Nat) : Prop :=
  p.Opens r.now sid → (text ≠ "" → AuthorFit author) ∧ Room clock r sid (turnsLength (staying (p.turnsAt r.now sid)) +
      entriesLength (Turn.opened r.toReading text author none).entries + brings)

def FrameClear (clock : Clock) (codec : Codec) (p : Projection) (r : Tick) (sid : String) (f : Frame) : Prop :=
  if f.type = .seed then SeedClear clock p r sid f.text f.author 0
  else if ((p.sessions.get? sid).map Session.lastActive).getD false then
    f.Plain codec ∧ ∀ s ∈ p.sessions.get? sid, Room clock r sid (turnsLength s.turns + bringsTo codec f s.turns)
  else if f.type = .turnComplete ∨ f.type = .response ∨ f.type = .error ∨ f.type = .reasoning then True
  else p.Opens r.now sid → f.Plain codec ∧
    SeedClear clock p r sid "" .null ((Turn.opened r.toReading "" .null none).brings codec f)

/-- The steps after which every client keeps its snapshots: no author field that is missing or too
long, no tool without a string for its name and call, and turns that have room together. -/
def Clear (clock : Clock) (codec : PyCodec) (h : Hub) : Move → Prop
  | .run r q => Counting h.projection ∧ TurnClear clock h.projection r q
  | .publish r f => Counting h.projection ∧
      ∀ sid ∈ f.sessionId, sid ≠ "" → f.type ≠ .other → FrameClear clock codec.toCodec h.projection r sid f
  | .prune _ | .deliver _ _ => Counting h.projection
  | _ => True

instance (p : Projection) : Decidable (Counting p) := inferInstanceAs (Decidable (_ ≤ _))

instance (clock : Clock) (p : Projection) (r : Tick) (q : TurnRequest) : Decidable (TurnClear clock p r q) :=
  inferInstanceAs (Decidable (_ → (_ → _) ∧ (∀ j ∈ q.attachments, _) ∧ _))

instance (clock : Clock) (p : Projection) (r : Tick) (sid text : String) (author : Json) (brings : Nat) :
    Decidable (SeedClear clock p r sid text author brings) :=
  inferInstanceAs (Decidable (_ → (_ → _) ∧ _))

instance (clock : Clock) (codec : Codec) (p : Projection) (r : Tick) (sid : String) (f : Frame) :
    Decidable (FrameClear clock codec p r sid f) := by
  delta FrameClear
  infer_instance

instance (clock : Clock) (codec : PyCodec) (h : Hub) : (e : Move) → Decidable (Clear clock codec h e)
  | .run _ _ => inferInstanceAs (Decidable (_ ∧ _))
  | .publish _ f => inferInstanceAs (Decidable (_ ∧ ∀ sid ∈ f.sessionId, _))
  | .prune _ | .deliver _ _ => inferInstanceAs (Decidable (Counting _))
  | .resource _ _ _ | .connect _ _ | .disconnect _ | .received _ _ | .authorized _ _ | .sendDone _
  | .deliveryFailed _ => inferInstanceAs (Decidable True)

variable {r : Tick}

theorem Fits.run {clock : Clock} {p : Projection} (h : Fits clock p) (hcou : Counting p)
    {q : TurnRequest} (hcle : TurnClear clock p r q) : Fits clock (p.run r.toReading q) := by
  obtain ⟨hope, hshut⟩ := run_eq p r.toReading q
  by_cases hopen : p.Opens r.now q.sid
  · obtain ⟨haut, hatt, hroom⟩ := hcle hopen
    obtain ⟨hget, hrev⟩ := hope hopen
    have hopened := valid_opened r (fun ht => (haut ht).fit) (some q.requestId)
    exact (h.begun hcou r (hopened.started hatt) hroom).congr hget hrev
  · rw [hshut hopen]
    exact h.prune hcou r.now

theorem Fits.begin (h : Fits clock p) (hcou : Counting p)
    {text : String} {author : Json} {brings : Nat} (hcle : SeedClear clock p r sid text author brings) :
    Fits clock (p.begin r.toReading sid text author none).2 := by
  obtain ⟨hope, hshut⟩ := begin_eq p r.toReading sid text author none
  by_cases hopen : p.Opens r.now sid
  · obtain ⟨haut, hroom⟩ := hcle hopen
    rw [hope hopen]
    refine h.begun hcou r (valid_opened r haut none) ?_
    rw [Room] at hroom ⊢
    omega
  · rw [hshut hopen]
    exact h.prune hcou r.now

theorem get?_begin {r : Reading} {text : String} {author : Json} {s : Session}
    (h : (p.begin r sid text author none).2.sessions.get? sid = some s) :
    (p.Opens r.now sid ∧ s.turns = Projection.turnsWith (p.turnsAt r.now sid) r (Turn.opened r text author none)) ∨
      (¬ p.Opens r.now sid ∧ (p.prune r.now).sessions.get? sid = some s) := by
  obtain ⟨hope, hshut⟩ := begin_eq p r sid text author none
  by_cases hopen : p.Opens r.now sid
  · rw [hope hopen, begun, turns_begun, changed, Dict.get?_set_self] at h
    cases h
    exact .inl ⟨hopen, rfl⟩
  · rw [hshut hopen] at h
    exact .inr ⟨hopen, h⟩

theorem bringsTo_turnsWith (codec : Codec) (f : Frame) (turns : List Turn) (r : Reading) (turn : Turn) :
    bringsTo codec f (Projection.turnsWith turns r turn) = turn.brings codec f := by
  rw [bringsTo, turnsWith, List.getLast?_concat]
  rfl

theorem Fits.updated (h : Fits clock p) (hcoun : Counting p) (hseed : f.type ≠ .seed)
    (hcle : FrameClear clock codec.toCodec p r sid f) :
    Fits clock (if ((p.sessions.get? sid).map Session.lastActive).getD false then p.record codec.toCodec r.toReading sid f
      else if f.type = .turnComplete ∨ f.type = .response ∨ f.type = .error ∨ f.type = .reasoning then p
      else (p.begin r.toReading sid "" .null none).2.record codec.toCodec r.toReading sid f) := by
  have hcou := hcoun
  rw [Counting] at hcou
  rw [FrameClear, if_neg hseed] at hcle
  split at hcle
  · next hact =>
      obtain ⟨hpla, hroom⟩ := hcle
      rw [if_pos hact]
      refine h.record r hpla (by omega) (fun s hs => ?_)
      have hfits := hroom s hs
      rw [Room, margin] at hfits
      omega
  next hidle =>
    rw [if_neg hidle]
    split at hcle
    · next hover =>
        rw [if_pos hover]
        exact h
    next hope =>
      rw [if_neg hope]
      by_cases hopen : p.Opens r.now sid
      · obtain ⟨hpla, hseed⟩ := hcle hopen
        refine (h.begin hcoun hseed).record r hpla ?_ ?_
        · rw [(begin_eq p r.toReading sid "" .null none).1 hopen]
          have hrev := (pruned_prune p r.now).2
          change (p.prune r.now).revision + 1 + 1 ≤ 9007199254740991
          omega
        intro s hs
        obtain ⟨-, htur⟩ | ⟨hshut, -⟩ := get?_begin hs
        · have hfits := (hseed hopen).2
          have hlen := turnsLength_turnsWith (p.turnsAt r.now sid) r.toReading (Turn.opened r.toReading "" .null none)
          rw [Room, margin] at hfits
          rw [htur, bringsTo_turnsWith]
          omega
        · exact absurd hopen hshut
      have hnone : (p.prune r.now).sessions.get? sid = none := by
        rw [Projection.Opens, not_or] at hopen
        exact not_isSome_iff_eq_none.mp hopen.1
      rw [(begin_eq p r.toReading sid "" .null none).2 hopen, Projection.record]
      rw [hnone]
      exact h.prune hcoun r.now

theorem Fits.publish (h : Fits clock p) (hcou : Counting p)
    (hcle : ∀ sid ∈ f.sessionId, sid ≠ "" → f.type ≠ .other →
      FrameClear clock codec.toCodec p r sid f) : Fits clock (p.publish codec.toCodec r.toReading f) := by
  rw [Projection.publish]
  split
  · exact h
  · exact h
  · exact h
  · next sid hne hsid hseed =>
      have hfra := hcle sid hsid hne (by rw [hseed]; decide)
      rw [FrameClear, if_pos hseed] at hfra
      exact h.begin hcou hfra
  · next sid hne hsid hoth hseed => exact h.updated hcou hseed (hcle sid hsid hne hoth)

def Observer.Accepted (seconds : Int → PyFloat) (o : Observer) : Prop :=
  ∀ sid payload, .state sid payload ∈ o.outbox → clientAccepts (sharedState seconds sid payload) = true

variable {seconds : Int → PyFloat}

variable {o : Observer}

theorem Observer.Accepted.hand (h : o.Accepted seconds) {f : SharedFrame}
    (hf : ∀ sid payload, f = .state sid payload → clientAccepts (sharedState seconds sid payload) = true) :
    (o.hand f).Accepted seconds := by
  intro sid payload hmem
  rcases mem_append.mp hmem with hmem | hmem
  · exact h sid payload hmem
  · exact hf sid payload (mem_singleton.mp hmem).symm

open Observer.Accepted

theorem Observer.Accepted.nextFrame (h : o.Accepted seconds)
    (allowed : List Target) (frames : List ResourceFrame) : (o.nextFrame allowed frames).Accepted seconds := by
  cases frames with
  | nil => exact h
  | cons f rest =>
    rw [Observer.nextFrame]
    split
    · exact h
    · exact h.hand (fun _ _ hf => by cases hf)

theorem Observer.Accepted.nextSession (h : o.Accepted seconds)
    (generation : Nat) (allowed : List Target) (sids : List String) :
    (o.nextSession generation allowed sids).Accepted seconds := by
  cases sids with
  | nil =>
    refine nextFrame ?_ allowed _
    exact h
  | cons sid rest => exact h

variable {h : Hub}

variable {c : ClientId}

theorem Observed.setObserver (hs : Observed seconds h)
    (ho : o.Accepted seconds) : Observed seconds (h.setObserver c o) := by
  intro d
  rw [Hub.setObserver]
  dsimp only
  by_cases hd : d = c
  · rw [hd, Function.update_self]
    exact ho
  · rw [Function.update_of_ne hd]
    exact hs d

theorem Observed.viewsAuthorized (hs : Observed seconds h) (c : ClientId)
    (generation : Nat) (targets : List Target) (access : Access) :
    Observed seconds (h.viewsAuthorized c generation targets access) := by
  have hkeep : (h.observer c).Accepted seconds := hs c
  rw [Hub.viewsAuthorized]
  split
  · exact hs.setObserver hkeep
  dsimp only
  split
  · refine hs.setObserver (hand hkeep ?_)
    exact fun _ _ hf => by cases hf
  · refine hs.setObserver (nextSession ?_ generation _ _)
    exact hkeep

theorem Observed.sessionAuthorized (hs : Observed clock.seconds h)
    (hfits : Fits clock h.projection) {generation : Nat} {allowed : List Target}
    {rest : List String} (access : Access) (hsid : isIdentifier sid = true) :
    Observed clock.seconds (h.sessionAuthorized c generation allowed sid rest access) := by
  have hkeep : ((h.observer c).note (.asked [⟨.session, sid⟩] access.allowed)).Accepted clock.seconds := hs c
  rw [Hub.sessionAuthorized]
  split
  · exact hs.setObserver hkeep
  dsimp only
  generalize (if (⟨.session, sid⟩ : Target) ∈ access.allowed then addTarget allowed ⟨.session, sid⟩
    else allowed.filter (· ≠ ⟨.session, sid⟩)) = after
  split
  · exact hs.setObserver (hkeep.hand (fun _ _ hf => by cases hf))
  split
  · refine hs.setObserver (hand hkeep ?_)
    intro j payload hf
    cases hf
    exact hfits.accepted hsid
  · exact hs.setObserver (hkeep.nextSession generation _ rest)

theorem Observed.frameAuthorized (hs : Observed seconds h) (c : ClientId)
    (allowed : List Target) (f : ResourceFrame) (t : Target) (rest : List ResourceFrame) (access : Access) :
    Observed seconds (h.frameAuthorized c allowed f t rest access) := by
  have hkeep : ((h.observer c).note (.asked [t] access.allowed)).Accepted seconds := hs c
  rw [Hub.frameAuthorized]
  split
  · exact hs.setObserver (hkeep.nextFrame allowed rest)
  split
  · exact hs.setObserver (hkeep.nextFrame allowed rest)
  · refine hs.setObserver (hand hkeep ?_)
    exact fun _ _ hf => by cases hf

theorem isIdentifier_of_authorize {result access : Access}
    (h : authorize [⟨.session, sid⟩] result = some access) : isIdentifier sid = true := by
  rw [authorize] at h
  split at h
  · cases h
  · next hid => simpa using hid

theorem Observed.authorized {h' : Hub} (hs : Observed clock.seconds h)
    (hfits : Fits clock h.projection) {result : Access} (he : h.authorized c result = some h') :
    Observed clock.seconds h' := by
  rw [Hub.authorized] at he
  split at he
  · obtain ⟨access, -, rfl⟩ := map_eq_some_iff.mp he
    exact hs.viewsAuthorized c _ _ access
  · obtain ⟨access, hacc, rfl⟩ := map_eq_some_iff.mp he
    exact hs.sessionAuthorized hfits access (isIdentifier_of_authorize hacc)
  · obtain ⟨access, -, rfl⟩ := map_eq_some_iff.mp he
    exact hs.frameAuthorized c _ _ _ _ access
  · cases he

theorem Observed.sendDone {h' : Hub} (hs : Observed seconds h)
    (he : h.sendDone c = some h') : Observed seconds h' := by
  have hkeep : (h.observer c).Accepted seconds := hs c
  rw [Hub.sendDone] at he
  split at he
  · cases he
    exact hs.setObserver (hkeep.nextSession _ _ _)
  · cases he
    exact hs.setObserver (hkeep.nextSession _ _ _)
  · cases he
    refine hs.setObserver (nextSession ?_ _ _ _)
    exact hkeep
  · cases he
    exact hs.setObserver (hkeep.nextFrame _ _)
  · cases he

theorem observed_move {h' : Hub} {e : Move} (hfits : Fits clock h.projection)
    (hs : Observed clock.seconds h) (hcle : Clear clock codec h e) (he : move codec.toCodec h e = some h') :
    Fits clock h'.projection ∧ Observed clock.seconds h' := by
  have hkeep : ∀ c, (h.observer c).Accepted clock.seconds := hs
  cases e with
  | run r request =>
    cases he
    exact ⟨hfits.run hcle.1 hcle.2, hs⟩
  | publish r frame =>
    cases he
    exact ⟨hfits.publish hcle.1 hcle.2, hs⟩
  | prune now =>
    cases he
    exact ⟨hfits.prune hcle now, hs⟩
  | deliver c now =>
    rw [move, next] at he
    split at he
    · cases he
      refine ⟨hfits.prune hcle now, Observed.setObserver (h := { h with projection := _ }) hs ?_⟩
      exact hkeep c
    · cases he
  | authorized c result =>
    have hsame := projection_authorized he
    exact ⟨hsame ▸ hfits, hs.authorized hfits he⟩
  | sendDone c =>
    have hsame := projection_sendDone he
    exact ⟨hsame ▸ hfits, hs.sendDone he⟩
  | resource resource action resourceId =>
    cases he
    refine ⟨hfits, fun c => ?_⟩
    rw [Hub.resource]
    dsimp only
    split
    · exact hkeep c
    · exact hkeep c
  | connect c user =>
    rw [move, next, Hub.connect] at he
    split at he
    · cases he
    cases he
    refine ⟨hfits, fun d => ?_⟩
    exact hs.setObserver (c := c) (o := { user }) (fun _ _ hmem => by cases hmem) d
  | disconnect c =>
    rw [move, next] at he
    split at he
    · cases he
      refine ⟨hfits, fun d => ?_⟩
      exact hs.setObserver (c := c) (o := { h.observer c with stage := .stopped }) (hkeep c) d
    · cases he
  | received c text =>
    rw [move, next] at he
    split at he
    · cases he
      rw [Hub.received]
      split
      · exact ⟨hfits, hs⟩
      · exact ⟨hfits, hs.setObserver (hkeep c)⟩
      · refine ⟨hfits, fun d => ?_⟩
        exact hs.setObserver (c := c) (o := { h.observer c with stage := .stopped }) (hkeep c) d
    · cases he
  | deliveryFailed c =>
    rw [move, next, Hub.deliveryFailed] at he
    split at he
    · cases he
    · cases he
      exact ⟨hfits, hs.setObserver (hand (f := .authError) (hkeep c) (fun _ _ hf => by cases hf))⟩

theorem Fits.empty (clock : Clock) : Fits clock Projection.empty where
  sound := sound_empty
  revision := Nat.zero_le _
  turns := fun _ _ hs => by cases hs
  room := fun _ _ hs => by cases hs

/-- While every step leaves what the client takes, so is every state frame that was sent. -/
theorem shared_snapshots_accepted (clock : Clock) (codec : PyCodec) {h : Hub}
    (hr : Runs.ReachesUnder (move codec.toCodec) (Clear clock codec) Hub.empty h) : Observed clock.seconds h := by
  have hI : Fits clock h.projection ∧ Observed clock.seconds h := by
    refine Runs.invariant_under (I := fun h : Hub => Fits clock h.projection ∧ Observed clock.seconds h) ?_ ?_ hr
    · exact fun h e h' ⟨hfits, hs⟩ hcle he => observed_move hfits hs hcle he
    · exact ⟨Fits.empty clock, fun _ _ _ hmem => by cases hmem⟩
  exact hI.2

def SharedFrame.valid (seconds : Int → PyFloat) : SharedFrame → Bool
  | .state sid payload => validSharedSnapshot (sharedState seconds sid payload)
  | _ => true

theorem valid_of_observed (hs : Observed seconds h) (c : ClientId)
    {f : SharedFrame} (hf : f ∈ (h.observer c).outbox) : f.valid seconds = true := by
  cases f with
  | state sid payload =>
    have hkept := hs c sid payload hf
    rw [clientAccepts, Bool.and_eq_true] at hkept
    exact hkept.2
  | presence people | revoked sid | resource frame | authError => rfl

def chatTexts : List Json :=
  [.obj [("type", .str "observe"), ("sessions", .arr [.str "chat"])],
    .obj [("tool_name", .str "read"), ("tool_call_id", .str "call"), ("result", .str "done")]]

/-- Reads the two texts of `chatTexts`. -/
def chatCodec : PyCodec where
  loads text := chatTexts.find? (fun j => j.dumps = text)
  same
    | .str a, .str b => decide (a = b)
    | _, _ => false
  same_str _ _ := rfl

def stoppedClock : Clock := ⟨fun _ => midnight.time, fun _ => by decide⟩

def dawn : Tick := ⟨⟨0, midnight.time, "0123456789abcdef0123456789abcdef"⟩, by decide, by decide⟩

def chatTurn (handle : Option String) : List Move :=
  [.connect 0 ⟨"user", "User"⟩, .received 0 (chatTexts.headD .null).dumps,
    .run dawn ⟨"chat", "Hello", ⟨false, "ada", "Ada", handle⟩, "request", false, []⟩,
    .publish dawn { sessionId := some "chat", type := .status, text := (chatTexts.getLastD .null).dumps },
    .publish dawn { sessionId := some "chat", type := .delta, text := "Hi" }, .deliver 0 0,
    .authorized 0 ⟨"user", "User", [chat]⟩, .sendDone 0, .authorized 0 ⟨"user", "User", [chat]⟩]

theorem shared_snapshots_accepted_chat : ∃ h, Runs.ReachesUnder (move chatCodec.toCodec) (Clear stoppedClock chatCodec)
    Hub.empty h ∧ (lastState (h.observer 0).outbox "chat").isSome = true ∧ Observed stoppedClock.seconds h := by
  have hall : Runs.all (fun h e => decide (Clear stoppedClock chatCodec h e)) (move chatCodec.toCodec) Hub.empty
    (chatTurn (some "ada@lab")) = true := by decide +kernel
  have hrun : (Runs.run (move chatCodec.toCodec) Hub.empty (chatTurn (some "ada@lab"))).any (fun h =>
    (lastState (h.observer 0).outbox "chat").isSome) = true := by decide +kernel
  obtain ⟨h, hh, hsho⟩ := (any_eq_true _ _).mp hrun
  have hr := Runs.reachesUnder_of_all hall hh
  exact ⟨h, hr, hsho, shared_snapshots_accepted stoppedClock chatCodec hr⟩

/-- A principal without a handle shares a turn, and whoever watches the session has no use for it. -/
theorem handleless_author_not_accepted : ¬ ∀ (clock : Clock) (codec : PyCodec) (es : List Move) (h : Hub),
    Runs.run (move codec.toCodec) Hub.empty es = some h → Observed clock.seconds h := by
  intro hcla
  have hrun : (Runs.run (move chatCodec.toCodec) Hub.empty (chatTurn none)).any (fun h =>
      (h.observer 0).outbox.any (fun f => !f.valid stoppedClock.seconds)) = true := by decide +kernel
  obtain ⟨h, hh, hsho⟩ := (any_eq_true _ _).mp hrun
  obtain ⟨f, hf, hrefu⟩ := any_eq_true.mp hsho
  rw [valid_of_observed (hcla stoppedClock chatCodec _ h hh) 0 hf] at hrefu
  cases hrefu

end OpenAgent.Gateway.Collaboration
