import OpenAgent.Channels.HostedSlack
import OpenAgent.Lib.Runs

namespace OpenAgent.Channels.HostedSlack

open Py Gateway List Record Bridge Assoc

abbrev Outcomes := List (String × String × Outcome)

/-- No delivery is handled twice; each acknowledgement is the recorded one; an accepted delivery was completed by the
runtime; one that was seen is neither handled nor acknowledged with another body; nothing follows a failure. -/
structure Truthful (log : List Record) (outcomes : Outcomes) : Prop where
  once : log.Pairwise (fun x y => ∀ id h h', x = .handled id h → y ≠ .handled id h')
  recorded : ∀ id h o, Record.requested (.ack id h o) ∈ log → Assoc.get? outcomes id = some (h, o)
  accepted : ∀ before after id h, log = before ++ .requested (.ack id h .accepted) :: after →
    Record.completed id ∈ before ∧ Record.failed (some id) ∉ log ∧ Record.denied id ∉ log
  sameBody : log.Pairwise (fun x y => ∀ id h h', x = .seen id h →
    (y = .handled id h' ∨ ∃ o, y = .requested (.ack id h' o)) → h = h')
  closed : log.Pairwise (fun x y => ∀ id, x = .failed id → (∀ r, y ≠ .requested r) ∧ ∀ id h, y ≠ .handled id h)

structure Allows (log : List Record) (outcomes : Outcomes) (r : Record) : Prop where
  once : ∀ id h, r = .handled id h → ∀ h', Record.handled id h' ∉ log
  recorded : ∀ id h o, r = .requested (.ack id h o) → Assoc.get? outcomes id = some (h, o)
  accepted : ∀ id h, r = .requested (.ack id h .accepted) →
    Record.completed id ∈ log ∧ Record.failed (some id) ∉ log ∧ Record.denied id ∉ log
  marked : ∀ id, r = .failed (some id) ∨ r = .denied id → ∀ h, Assoc.get? outcomes id ≠ some (h, .accepted)
  sameBody : ∀ id h', (r = .handled id h' ∨ ∃ o, r = .requested (.ack id h' o)) → ∀ h, Record.seen id h ∈ log → h = h'
  closed : (∃ q, r = .requested q) ∨ (∃ id h, r = .handled id h) → ∀ id, Record.failed id ∉ log

section Log

variable {log : List Record} {outcomes : Outcomes} {r : Record}

theorem pairwise_record {R : Record → Record → Prop} (h : log.Pairwise R) (hr : ∀ x ∈ log, R x r) :
    (log ++ [r]).Pairwise R := by
  refine pairwise_append.mpr ⟨h, pairwise_singleton _ _, ?_⟩
  intro x hx y hy
  rw [mem_singleton.mp hy]
  exact hr x hx

theorem Truthful.record (h : Truthful log outcomes) (ha : Allows log outcomes r) : Truthful (log ++ [r]) outcomes := by
  refine ⟨pairwise_record h.once ?_, ?_, ?_, pairwise_record h.sameBody ?_, pairwise_record h.closed ?_⟩
  · rintro x hx id g g' rfl hr
    exact ha.once id g' hr g hx
  · intro id g o hmem
    rcases mem_append.mp hmem with hmem | hmem
    · exact h.recorded id g o hmem
    · exact ha.recorded id g o (mem_singleton.mp hmem).symm
  · intro before after id g heq
    have hout : get? outcomes id = some (g, .accepted) := by
      have hmem : requested (.ack id g .accepted) ∈ log ++ [r] := heq ▸ by simp
      rcases mem_append.mp hmem with hmem | hmem
      · exact h.recorded id g _ hmem
      · exact ha.recorded id g _ (mem_singleton.mp hmem).symm
    have hboth : completed id ∈ before ∧ failed (some id) ∉ log ∧ denied id ∉ log := by
      rcases eq_nil_or_concat after with rfl | ⟨after, last, rfl⟩
      · obtain ⟨rfl, hr⟩ := append_inj' heq rfl
        exact ha.accepted id g (singleton_inj.mp hr)
      · rw [concat_eq_append, ← cons_append, ← append_assoc] at heq
        exact h.accepted before after id g (append_inj' heq rfl).1
    refine ⟨hboth.1, fun hmem => ?_, fun hmem => ?_⟩
    · rcases mem_append.mp hmem with hmem | hmem
      · exact hboth.2.1 hmem
      · exact ha.marked id (.inl (mem_singleton.mp hmem).symm) g hout
    rcases mem_append.mp hmem with hmem | hmem
    · exact hboth.2.2 hmem
    · exact ha.marked id (.inr (mem_singleton.mp hmem).symm) g hout
  · rintro x hx id g g' rfl hr
    exact ha.sameBody id g' hr g hx
  · rintro x hx id rfl
    constructor
    · intro q hq
      exact ha.closed (.inl ⟨q, hq⟩) id hx
    · intro id' g hg
      exact ha.closed (.inr ⟨id', g, hg⟩) id hx

theorem Truthful.set (h : Truthful log outcomes) {id : String} (hnone : Assoc.get? outcomes id = none)
    (value : String × Outcome) : Truthful log (Assoc.set outcomes id value) := by
  refine ⟨h.once, ?_, h.accepted, h.sameBody, h.closed⟩
  intro id' g o hmem
  have hold := h.recorded id' g o hmem
  rw [get?_set, if_neg]
  · exact hold
  rintro rfl
  rw [hnone] at hold
  cases hold

theorem allows_seen (id h : String) : Allows log outcomes (.seen id h) := by
  constructor <;> simp

theorem Truthful.seen (h : Truthful log outcomes) (deliveries : List Json) :
    Truthful (log ++ deliveries.map (fun delivery => Record.seen (deliveryId delivery) (bodySha256 delivery)))
      outcomes := by
  induction deliveries generalizing log with
  | nil => simpa using h
  | cons delivery deliveries ih => simpa using ih (h.record (allows_seen _ _))

end Log

structure Dead (bridge : Bridge) : Prop where
  truthful : Truthful bridge.log bridge.outcomes
  dead : bridge.sessionDead = true

/-- What is known of the outcomes and the deliveries that are still to come. -/
structure Pending (log : List Record) (outcomes : Outcomes) (pending : List Json) : Prop where
  truthful : Truthful log outcomes
  known : ∀ id h, Record.seen id h ∈ log → (∃ o, Assoc.get? outcomes id = some (h, o)) ∨
    ∃ d ∈ pending, deliveryId d = id ∧ bodySha256 d = h
  accepted : ∀ id h, Assoc.get? outcomes id = some (h, .accepted) →
    Record.completed id ∈ log ∧ Record.failed (some id) ∉ log ∧ Record.denied id ∉ log
  distinct : (pending.map deliveryId).Nodup
  bodies : ∀ d ∈ pending, ∀ h o, Assoc.get? outcomes (deliveryId d) = some (h, o) → h = bodySha256 d

/-- Between two deliveries nothing has failed, and every delivery that was handled or denied has its outcome. -/
structure Ready (bridge : Bridge) (pending : List Json) : Prop extends Pending bridge.log bridge.outcomes pending where
  alive : bridge.sessionDead = false
  unfailed : ∀ id, Record.failed id ∉ bridge.log
  settled : ∀ id, (∃ h, Record.handled id h ∈ bridge.log) ∨ Record.denied id ∈ bridge.log →
    Assoc.get? bridge.outcomes id ≠ none

/-- In the handler of a delivery the client's flags say what has happened to it. -/
structure Handling (bridge : Bridge) (client : HostedSlackClient) (rest : List Json) : Prop extends
    Pending bridge.log bridge.outcomes (client.delivery :: rest) where
  fresh : Assoc.get? bridge.outcomes (deliveryId client.delivery) = none
  alive : bridge.sessionDead = true → client.failed = true
  unfailed : ∀ id, Record.failed id ∈ bridge.log → client.failed = true
  settled : ∀ id, (∃ h, Record.handled id h ∈ bridge.log) ∨ Record.denied id ∈ bridge.log →
    Assoc.get? bridge.outcomes id ≠ none ∨ id = deliveryId client.delivery
  denied : Record.denied (deliveryId client.delivery) ∈ bridge.log → client.denied = true
  completed : client.runtimeCompleted = true → Record.completed (deliveryId client.delivery) ∈ bridge.log

def Sound (bridge : Bridge) : Prop :=
  match bridge.stage with
  | .idle => Dead bridge ∨ Ready bridge []
  | .fetching => Ready bridge []
  | .handling client _ rest => Handling bridge client rest
  | .acking rest => Ready bridge rest

section Steps

variable {bridge : Bridge} {pending rest : List Json} {client : HostedSlackClient} {config : Config}
variable {log : List Record} {outcomes : Outcomes}

variable {r : Record}

theorem Pending.record (h : Pending log outcomes pending)
    (ha : Allows log outcomes r) (hseen : ∀ id g, r ≠ .seen id g) : Pending (log ++ [r]) outcomes pending := by
  refine ⟨h.truthful.record ha, ?_, ?_, h.distinct, h.bodies⟩
  · intro id g hmem
    rcases mem_append.mp hmem with hmem | hmem
    · exact h.known id g hmem
    · exact absurd (mem_singleton.mp hmem).symm (hseen id g)
  intro id g hout
  obtain ⟨hcom, hfai, hden⟩ := h.accepted id g hout
  refine ⟨mem_append_left _ hcom, fun hmem => ?_, fun hmem => ?_⟩
  · rcases mem_append.mp hmem with hmem | hmem
    · exact hfai hmem
    · exact ha.marked id (.inl (mem_singleton.mp hmem).symm) g hout
  rcases mem_append.mp hmem with hmem | hmem
  · exact hden hmem
  · exact ha.marked id (.inr (mem_singleton.mp hmem).symm) g hout

theorem allows_mark {id : String}
    (hnone : Assoc.get? outcomes id = none) (hr : r = .failed (some id) ∨ r = .denied id ∨ r = .completed id) :
    Allows log outcomes r := by
  refine ⟨?_, ?_, ?_, ?_, ?_, ?_⟩
  · rcases hr with rfl | rfl | rfl <;> simp
  · rcases hr with rfl | rfl | rfl <;> simp
  · rcases hr with rfl | rfl | rfl <;> simp
  · intro id' hid' h hout
    rcases hr with rfl | rfl | rfl <;> simp at hid' <;> subst hid' <;> simp [hnone] at hout
  · rcases hr with rfl | rfl | rfl <;> simp
  · rcases hr with rfl | rfl | rfl <;> simp

theorem allows_failed_none : Allows log outcomes (.failed none) := by
  constructor <;> simp

theorem Pending.abort (h : Pending bridge.log bridge.outcomes pending) {id : Option String}
    (hid : ∀ x ∈ id, Assoc.get? bridge.outcomes x = none) : Sound (bridge.abort id) := by
  refine .inl ⟨h.truthful.record ?_, rfl⟩
  cases id with
  | none => exact allows_failed_none
  | some x => exact allows_mark (hid x rfl) (.inl rfl)

theorem Ready.abort (h : Ready bridge pending) : Sound (bridge.abort none) :=
  h.toPending.abort (by simp)

variable {o : Outcome}

theorem Ready.acknowledge {d : Json} (h : Ready bridge rest)
    (hout : Assoc.get? bridge.outcomes (deliveryId d) = some (bodySha256 d, o))  :
    Sound (bridge.acknowledge d o rest) := by
  rw [Bridge.acknowledge, Bridge.request]
  split
  · rename_i sent hsent
    split at hsent
    · cases hsent
    cases hsent
    have hall : Allows bridge.log bridge.outcomes (.requested (.ack (deliveryId d) (bodySha256 d) o)) := by
      refine ⟨by simp, ?_, ?_, by simp, ?_, fun _ => h.unfailed⟩
      · rintro id g o' heq
        cases heq
        exact hout
      · rintro id g heq
        cases heq
        exact h.accepted _ _ hout
      rintro id g (heq | ⟨o', heq⟩) g' hseen
      · cases heq
      cases heq
      rcases h.known _ _ hseen with ⟨o', ho'⟩ | ⟨d', hd', hid, hbody⟩
      · rw [hout] at ho'
        cases ho'
        rfl
      rw [← hid] at hout
      rw [← hbody]
      exact (h.bodies d' hd' _ _ hout).symm
    refine ⟨h.toPending.record hall (by simp), h.alive, ?_, ?_⟩
    · intro id hmem
      rcases mem_append.mp hmem with hmem | hmem
      · exact h.unfailed id hmem
      · exact absurd (mem_singleton.mp hmem) (by simp)
    intro id hmem
    refine h.settled id ?_
    rcases hmem with ⟨g, hmem⟩ | hmem
    · rcases mem_append.mp hmem with hmem | hmem
      · exact .inl ⟨g, hmem⟩
      · exact absurd (mem_singleton.mp hmem) (by simp)
    rcases mem_append.mp hmem with hmem | hmem
    · exact .inr hmem
    · exact absurd (mem_singleton.mp hmem) (by simp)
  · exact h.abort

theorem Pending.settle {d : Json}
    (h : Pending log outcomes (d :: rest)) (hnone : Assoc.get? outcomes (deliveryId d) = none)
    (hacc : o = .accepted → Record.completed (deliveryId d) ∈ log ∧ Record.failed (some (deliveryId d)) ∉ log ∧
      Record.denied (deliveryId d) ∉ log) :
    Pending log (Assoc.set outcomes (deliveryId d) (bodySha256 d, o)) rest := by
  have hdis := h.distinct
  rw [map_cons, nodup_cons] at hdis
  refine ⟨h.truthful.set hnone _, ?_, ?_, hdis.2, ?_⟩
  · intro id g hmem
    rcases h.known id g hmem with ⟨o', ho'⟩ | ⟨d', hd', rfl, rfl⟩
    · refine .inl ⟨o', ?_⟩
      rw [get?_set, if_neg]
      · exact ho'
      rintro rfl
      rw [hnone] at ho'
      cases ho'
    rcases mem_cons.mp hd' with rfl | hd'
    · exact .inl ⟨o, by rw [get?_set, if_pos rfl]⟩
    · exact .inr ⟨d', hd', rfl, rfl⟩
  · intro id g hout
    rw [get?_set] at hout
    split at hout
    · rename_i hid
      cases hout
      exact hid ▸ hacc rfl
    · exact h.accepted id g hout
  intro d' hd' g o' hout
  rw [get?_set, if_neg] at hout
  · exact h.bodies d' (mem_cons_of_mem _ hd') g o' hout
  · intro heq
    exact hdis.1 (heq ▸ mem_map_of_mem hd')

theorem Bridge.settle_sound {d : Json} (h : Pending bridge.log bridge.outcomes (d :: rest))
    (hnone : Assoc.get? bridge.outcomes (deliveryId d) = none) (hali : bridge.sessionDead = false)
    (hunf : ∀ id, Record.failed id ∉ bridge.log)
    (hset : ∀ id, (∃ g, Record.handled id g ∈ bridge.log) ∨ Record.denied id ∈ bridge.log →
      Assoc.get? bridge.outcomes id ≠ none ∨ id = deliveryId d)
    (hacc : o = .accepted → Record.completed (deliveryId d) ∈ bridge.log ∧ Record.denied (deliveryId d) ∉ bridge.log) :
    Sound (bridge.settle d o rest) := by
  have hpen := h.settle hnone (fun ho => ⟨(hacc ho).1, hunf _, (hacc ho).2⟩)
  refine Ready.acknowledge ⟨hpen, hali, hunf, ?_⟩ (by simp [get?_set])
  intro id hmem
  rw [get?_set]
  split
  · simp
  · rename_i hid
    exact (hset id hmem).resolve_right hid

theorem Ready.proceed (h : Ready bridge pending) : Sound (bridge.proceed config pending) := by
  cases pending with
  | nil => exact .inr ⟨h.toPending, h.alive, h.unfailed, h.settled⟩
  | cons d rest =>
    have hdis := h.distinct
    rw [map_cons, nodup_cons] at hdis
    rw [proceed]
    cases hpre : get? bridge.outcomes (deliveryId d) with
    | some previous =>
      have hrest : Ready bridge rest := by
        refine ⟨⟨h.truthful, ?_, h.accepted, hdis.2, fun d' hd' => h.bodies d' (mem_cons_of_mem _ hd')⟩,
          h.alive, h.unfailed, h.settled⟩
        intro id g hmem
        rcases h.known id g hmem with hout | ⟨d', hd', rfl, rfl⟩
        · exact .inl hout
        rcases mem_cons.mp hd' with rfl | hd'
        · exact .inl ⟨previous.2, by rw [hpre, ← h.bodies _ hd' _ _ hpre]⟩
        · exact .inr ⟨d', hd', rfl, rfl⟩
      refine hrest.acknowledge ?_
      rw [hpre, ← h.bodies d mem_cons_self _ _ hpre]
    | none =>
      simp only
      split
      · exact h.abort
      split
      · exact h.abort
      split
      · exact h.abort
      · -- the delivery is denied without a handler
        have hmark : Allows bridge.log bridge.outcomes (.denied (deliveryId d)) :=
          allows_mark hpre (.inr (.inl rfl))
        refine settle_sound (h.toPending.record hmark (by simp)) hpre h.alive ?_ ?_ (by simp)
        · intro id hmem
          rcases mem_append.mp hmem with hmem | hmem
          · exact h.unfailed id hmem
          · exact absurd (mem_singleton.mp hmem) (by simp)
        intro id hmem
        rcases hmem with ⟨g, hmem⟩ | hmem
        · rcases mem_append.mp hmem with hmem | hmem
          · exact .inl (h.settled id (.inl ⟨g, hmem⟩))
          · exact absurd (mem_singleton.mp hmem) (by simp)
        rcases mem_append.mp hmem with hmem | hmem
        · exact .inl (h.settled id (.inr hmem))
        · exact .inr (denied.inj (mem_singleton.mp hmem))
      · -- the delivery goes to the handler
        have hall : Allows bridge.log bridge.outcomes (.handled (deliveryId d) (bodySha256 d)) := by
          refine ⟨?_, by simp, by simp, by simp, ?_, fun _ => h.unfailed⟩
          · rintro id g heq g' hmem
            cases heq
            exact h.settled _ (.inl ⟨g', hmem⟩) hpre
          rintro id g (heq | ⟨o', heq⟩) g' hseen
          · cases heq
            rcases h.known _ _ hseen with ⟨o', ho'⟩ | ⟨d', hd', hid, rfl⟩
            · rw [hpre] at ho'
              cases ho'
            · rw [inj_on_of_nodup_map h.distinct hd' mem_cons_self hid]
          · cases heq
        refine ⟨h.toPending.record hall (by simp), hpre, ?_, ?_, ?_, ?_, by simp⟩
        · intro hdead
          exact absurd (h.alive.symm.trans hdead) (by simp)
        · intro id hmem
          rcases mem_append.mp hmem with hmem | hmem
          · exact absurd hmem (h.unfailed id)
          · exact absurd (mem_singleton.mp hmem) (by simp)
        · intro id hmem
          rcases hmem with ⟨g, hmem⟩ | hmem
          · rcases mem_append.mp hmem with hmem | hmem
            · exact .inl (h.settled id (.inl ⟨g, hmem⟩))
            · exact .inr (handled.inj (mem_singleton.mp hmem)).1
          rcases mem_append.mp hmem with hmem | hmem
          · exact .inl (h.settled id (.inr hmem))
          · exact absurd (mem_singleton.mp hmem) (by simp)
        · intro hmem
          rcases mem_append.mp hmem with hmem | hmem
          · exact absurd hpre (h.settled _ (.inr hmem))
          · exact absurd (mem_singleton.mp hmem) (by simp)

theorem validDeliveries_spec {identity : Identity} {deliveries : List Json} {seen : List String}
    (h : validDeliveries config identity outcomes deliveries seen = true) :
    (deliveries.map deliveryId).Nodup ∧ (∀ d ∈ deliveries, deliveryId d ∉ seen) ∧
      ∀ d ∈ deliveries, ∀ g o, Assoc.get? outcomes (deliveryId d) = some (g, o) → g = bodySha256 d := by
  induction deliveries generalizing seen with
  | nil => simp
  | cons d deliveries ih =>
    simp only [validDeliveries, Bool.and_eq_true, Bool.not_eq_true', contains_eq_mem, decide_eq_false_iff_not] at h
    obtain ⟨⟨⟨⟨_, hseen⟩, _⟩, hbody⟩, hrest⟩ := h
    obtain ⟨hnod, hfre, hbod⟩ := ih hrest
    refine ⟨?_, ?_, ?_⟩
    · rw [map_cons, nodup_cons]
      refine ⟨fun hmem => ?_, hnod⟩
      obtain ⟨d', hd', hid⟩ := mem_map.mp hmem
      exact hfre d' hd' (hid ▸ mem_cons_self)
    · intro d' hd' hmem
      rcases mem_cons.mp hd' with rfl | hd'
      · exact hseen hmem
      · exact hfre d' hd' (mem_cons_of_mem _ hmem)
    intro d' hd' g o hout
    rcases mem_cons.mp hd' with rfl | hd'
    · rw [hout, Option.all_some, beq_iff_eq] at hbody
      exact hbody
    · exact hbod d' hd' g o hout

theorem Ready.inbox {identity : Identity} {deliveries : List Json} {result : Json} (h : Ready bridge [])
    (hval : validateInbox config bridge result = some (identity, deliveries)) :
    Ready { bridge with
      hostedIdentity := some identity
      log := bridge.log ++ deliveries.map (fun delivery => Record.seen (deliveryId delivery) (bodySha256 delivery)) }
      deliveries := by
  rw [validateInbox] at hval
  split at hval
  · split at hval
    · rename_i hdel
      cases hval
      obtain ⟨hnod, _, hbod⟩ := validDeliveries_spec hdel
      refine ⟨⟨h.truthful.seen deliveries, ?_, ?_, hnod, hbod⟩, h.alive, ?_, ?_⟩
      · intro id g hmem
        rcases mem_append.mp hmem with hmem | hmem
        · rcases h.known id g hmem with hout | ⟨d, hd, _⟩
          · exact .inl hout
          · cases hd
        obtain ⟨d, hd, heq⟩ := mem_map.mp hmem
        cases heq
        exact .inr ⟨d, hd, rfl, rfl⟩
      · intro id g hout
        simpa using h.accepted id g hout
      · intro id
        simpa using h.unfailed id
      · intro id
        simpa using h.settled id
    · cases hval
  · cases hval

theorem Ready.receiveInbox {response : Response} (h : Ready bridge []) :
    Sound (bridge.receiveInbox config response) := by
  cases response with
  | received result =>
    rw [Bridge.receiveInbox]
    split
    · rename_i hval
      exact (h.inbox hval).proceed
    · exact h.abort
  | _ => exact h.abort

theorem Ready.receiveAck {response : Response} (h : Ready bridge rest) :
    Sound (bridge.receiveAck config response rest) := by
  cases response with
  | received body =>
    rw [Bridge.receiveAck]
    split
    · exact h.proceed
    · exact h.abort
  | _ => exact h.abort

theorem Handling.mark {b : Bridge} {client' : HostedSlackClient} (h : Handling bridge client rest)
    (hlog : b.log = bridge.log ++ [r]) (hout : b.outcomes = bridge.outcomes)
    (hdel : client'.delivery = client.delivery)
    (hr : r = .failed (some (deliveryId client.delivery)) ∧ client'.failed = true ∨
      r = .denied (deliveryId client.delivery) ∧ client'.denied = true ∨
      r = .completed (deliveryId client.delivery))
    (hfai : client.failed = true → client'.failed = true) (hden : client.denied = true → client'.denied = true)
    (hcom : client'.runtimeCompleted = true →
      client.runtimeCompleted = true ∨ r = .completed (deliveryId client.delivery))
    (hdead : b.sessionDead = true → client'.failed = true) : Handling b client' rest := by
  have hall : Allows bridge.log bridge.outcomes r := by
    refine allows_mark h.fresh ?_
    rcases hr with ⟨hr, _⟩ | ⟨hr, _⟩ | hr
    · exact .inl hr
    · exact .inr (.inl hr)
    · exact .inr (.inr hr)
  have hseen : ∀ id g, r ≠ .seen id g := by
    rcases hr with ⟨rfl, _⟩ | ⟨rfl, _⟩ | rfl <;> simp
  have hpen := h.toPending.record hall hseen
  refine ⟨by rw [hlog, hout, hdel]; exact hpen, by rw [hout, hdel]; exact h.fresh, hdead, ?_, ?_, ?_, ?_⟩
  · intro id hmem
    rw [hlog, mem_append, mem_singleton] at hmem
    rcases hmem with hmem | rfl
    · exact hfai (h.unfailed id hmem)
    rcases hr with ⟨_, hf⟩ | ⟨hr, _⟩ | hr
    · exact hf
    · cases hr
    · cases hr
  · intro id hmem
    rw [hlog] at hmem
    rw [hout, hdel]
    rcases hmem with ⟨g, hmem⟩ | hmem
    · rw [mem_append, mem_singleton] at hmem
      rcases hmem with hmem | rfl
      · exact h.settled id (.inl ⟨g, hmem⟩)
      · rcases hr with ⟨hr, _⟩ | ⟨hr, _⟩ | hr <;> cases hr
    rw [mem_append, mem_singleton] at hmem
    rcases hmem with hmem | rfl
    · exact h.settled id (.inr hmem)
    rcases hr with ⟨hr, _⟩ | ⟨hr, _⟩ | hr
    · cases hr
    · exact .inr (denied.inj hr)
    · cases hr
  · intro hmem
    rw [hlog, hdel, mem_append, mem_singleton] at hmem
    rcases hmem with hmem | rfl
    · exact hden (h.denied hmem)
    rcases hr with ⟨hr, _⟩ | ⟨_, hd⟩ | hr
    · cases hr
    · exact hd
    · cases hr
  · intro hc
    rw [hlog, hdel]
    rcases hcom hc with hc | rfl
    · exact mem_append_left _ (h.completed hc)
    · simp

variable {inFlight : Nat}

section

variable (h : Handling bridge client rest)

include h

theorem Handling.fail : Sound (bridge.fail client inFlight rest) :=
  h.mark rfl rfl rfl (.inl ⟨rfl, rfl⟩) (fun _ => rfl) id .inl (fun _ => rfl)

theorem Handling.deny : Sound (bridge.deny client inFlight rest) :=
  h.mark rfl rfl rfl (.inr (.inl ⟨rfl, rfl⟩)) id (fun _ => rfl) .inl h.alive

theorem Handling.complete : Sound (bridge.complete client inFlight rest) :=
  h.mark rfl rfl rfl (.inr (.inr rfl)) id id (fun _ => .inr rfl) h.alive

theorem Handling.request {client' : HostedSlackClient} {q : Request} {sent : Bridge}
    (hfla : client.failed = false) (hsent : bridge.request q = some sent)
    (hq : ∀ id g o, q ≠ .ack id g o) (hdel : client'.delivery = client.delivery)
    (hsame : client'.denied = client.denied ∧ client'.runtimeCompleted = client.runtimeCompleted ∧
      client'.failed = client.failed) :
    Sound { sent with stage := .handling client' inFlight rest } := by
  have hunf : ∀ id, failed id ∉ bridge.log := fun id hmem => by
    rw [h.unfailed id hmem] at hfla
    cases hfla
  rw [Bridge.request] at hsent
  split at hsent
  · cases hsent
  cases hsent
  have hall : Allows bridge.log bridge.outcomes (.requested q) := by
    refine ⟨by simp, ?_, ?_, by simp, ?_, fun _ => hunf⟩
    · rintro id g o heq
      exact absurd (requested.inj heq) (hq id g o)
    · rintro id g heq
      exact absurd (requested.inj heq) (hq id g _)
    rintro id g (heq | ⟨o, heq⟩)
    · cases heq
    · exact absurd (requested.inj heq) (hq id g o)
  refine ⟨hdel ▸ h.toPending.record hall (by simp), hdel ▸ h.fresh, hsame.2.2 ▸ h.alive, ?_, ?_, ?_, ?_⟩
  · intro id hmem
    refine absurd ?_ (hunf id)
    simpa [record] using hmem
  · intro id hmem
    rw [hdel]
    refine h.settled id ?_
    simpa [record] using hmem
  · intro hmem
    rw [hsame.1]
    refine h.denied ?_
    simpa [record, hdel] using hmem
  · intro hc
    rw [hsame.2.1] at hc
    rw [hdel]
    exact mem_append_left _ (h.completed hc)

theorem Handling.call [Sha256] {method : String} {arguments : List (String × Json)} {write : Bool}
    (hstage : bridge.stage = .handling client inFlight rest) :
    Sound (bridge.call client inFlight rest method arguments write) := by
  rw [Bridge.call]
  split
  · rw [Sound, hstage]
    exact h
  rename_i hfla
  simp only [Bool.or_eq_true, not_or, Bool.not_eq_true] at hfla
  split
  · exact h.deny
  split
  · exact h.deny
  simp only
  split
  · rename_i sent hsent
    refine h.request hfla.1 hsent (by simp) ?_ ?_
    · split <;> rfl
    · split <;> exact ⟨rfl, rfl, rfl⟩
  split
  · refine h.mark rfl rfl rfl (.inl ⟨rfl, rfl⟩) (fun _ => rfl) id .inl (fun _ => rfl)
  · exact h.fail

theorem Handling.callEnd {response : Response} : Sound (bridge.callEnd client inFlight rest response) := by
  cases response with
  | received body =>
    rw [Bridge.callEnd]
    split
    · exact ⟨h.toPending, h.fresh, h.alive, h.unfailed, h.settled, h.denied, h.completed⟩
    · exact h.fail
  | forbidden => exact h.mark rfl rfl rfl (.inl ⟨rfl, rfl⟩) (fun _ => rfl) id .inl (fun _ => rfl)
  | failed | cancelled => exact h.fail

theorem Handling.sendMessage {outcome : SendOutcome} : Sound (bridge.sendMessage client inFlight rest outcome) := by
  cases outcome with
  | result type hasAttachment =>
    rw [Bridge.sendMessage]
    split
    · exact h.deny
    split
    · exact h.complete
    · exact h.fail
  | permission => exact h.deny
  | raised => exact h.fail

theorem Handling.abort : Sound (bridge.abort (some (deliveryId client.delivery))) :=
  h.toPending.abort (by rintro id ⟨⟩; exact h.fresh)

theorem Handling.conclude (hcom : client.failed = false → client.denied = false → client.runtimeCompleted = true) :
    Sound (bridge.conclude client rest) := by
  rw [Bridge.conclude]
  split
  · exact h.abort
  rename_i hfai
  rw [Bool.not_eq_true] at hfai
  have hno : ∀ {p : Prop}, client.failed = true → p := fun hf => by
    rw [hfai] at hf
    cases hf
  refine settle_sound h.toPending h.fresh ?_ (fun id hmem => hno (h.unfailed id hmem)) h.settled ?_
  · by_contra hdead
    exact hno (h.alive (by simpa using hdead))
  intro ho
  split at ho
  · cases ho
  rename_i hden
  rw [Bool.not_eq_true] at hden
  refine ⟨h.completed (hcom hfai hden), fun hmem => ?_⟩
  rw [h.denied hmem] at hden
  cases hden

theorem Handling.finish {end_ : HandlerEnd} : Sound (bridge.finish client rest end_) := by
  cases end_ with
  | raised => exact h.abort
  | returned =>
    rw [Bridge.finish]
    split
    · exact h.abort
    rename_i hfla
    refine h.conclude (fun _ hden => ?_)
    rw [hden] at hfla
    simpa using hfla
  | permission =>
    have hmar : Handling (bridge.record (.denied (deliveryId client.delivery))) { client with denied := true } rest :=
      h.mark rfl rfl rfl (.inr (.inl ⟨rfl, rfl⟩)) id (fun _ => rfl) .inl h.alive
    exact hmar.conclude (fun _ hden => by cases hden)

end

theorem Ready.poll (h : Ready bridge []) (hstage : bridge.stage = .idle) : Sound bridge.poll := by
  rw [Bridge.poll, Bridge.request]
  split
  · rename_i sent hsent
    split at hsent
    · cases hsent
    cases hsent
    have hall : Allows bridge.log bridge.outcomes (.requested .inbox) :=
      ⟨by simp, by simp, by simp, by simp, by simp, fun _ => h.unfailed⟩
    refine ⟨h.toPending.record hall (by simp), h.alive, ?_, ?_⟩
    · intro id
      simpa [record] using h.unfailed id
    · intro id
      simpa [record] using h.settled id
  · rw [Sound, hstage]
    exact .inr h

theorem Dead.poll (h : Dead bridge) (hstage : bridge.stage = .idle) : Sound bridge.poll := by
  rw [Bridge.poll, Bridge.request, h.dead, Bool.true_or, if_pos rfl]
  rw [Sound, hstage]
  exact .inl h

theorem Sound.setStop (h : Sound bridge) (stop : Bool) : Sound { bridge with shouldStop := stop } := by
  cases hstage : bridge.stage with
  | idle =>
    simp only [Sound, hstage] at h ⊢
    exact h.imp (fun h => ⟨h.truthful, h.dead⟩) (fun h => ⟨h.toPending, h.alive, h.unfailed, h.settled⟩)
  | fetching | acking _ =>
    simp only [Sound, hstage] at h ⊢
    exact ⟨h.toPending, h.alive, h.unfailed, h.settled⟩
  | handling client inFlight rest =>
    simp only [Sound, hstage] at h ⊢
    exact ⟨h.toPending, h.fresh, h.alive, h.unfailed, h.settled, h.denied, h.completed⟩

theorem Sound.truthful (h : Sound bridge) : Truthful bridge.log bridge.outcomes := by
  rw [Sound] at h
  split at h
  · exact h.elim Dead.truthful (fun h => h.truthful)
  · exact h.truthful
  · exact h.truthful
  · exact h.truthful

theorem Sound.after [Sha256] {b : Bridge} {e : Event} (h : Sound bridge) (hn : Bridge.next config bridge e = some b) :
    Sound b := by
  rw [Bridge.next.eq_def] at hn
  split at hn
  · cases hn
    exact h.setStop _
  · rename_i hstage
    cases hn
    rw [Sound, hstage] at h
    exact h.elim (fun h => h.poll hstage) (fun h => h.poll hstage)
  · rename_i hstage
    cases hn
    rw [Sound, hstage] at h
    exact h.receiveInbox
  · rename_i hstage
    cases hn
    rw [Sound, hstage] at h
    exact h.receiveAck
  · rename_i hstage
    cases hn
    rw [Sound, hstage] at h
    exact h.abort
  · rename_i hstage
    cases hn
    rw [Sound, hstage] at h
    exact h.abort
  · rename_i hstage
    cases hn
    rw [Sound, hstage] at h
    exact h.abort
  · rename_i hstage
    cases hn
    rw [Sound, hstage] at h
    exact h.call hstage
  · rename_i hstage
    cases hn
    rw [Sound, hstage] at h
    exact h.callEnd
  · rename_i hstage
    cases hn
    rw [Sound, hstage] at h
    exact h.deny
  · rename_i hstage
    cases hn
    rw [Sound, hstage] at h
    exact h.sendMessage
  · rename_i hstage
    cases hn
    rw [Sound, hstage] at h
    exact h.finish
  · cases hn

end Steps

theorem Sound.initial : Sound {} := by
  refine .inr ⟨⟨?_, by simp, by simp, nodup_nil, by simp⟩, rfl, by simp, by simp⟩
  constructor <;> simp

def sampleConfig : Config where
  serviceBindingId := "binding"
  serviceAppId := "A0C9XC9JHTK"

def sampleBody : String := "230d8358dc8e8890b4c58deeb62912ee2f20357ae92a5cc861b98e68fe31acb5"

def sampleInbox : Json :=
  .obj [("protocol", .str "openagent-slack-channel/v1"),
    ("binding", .obj [("id", .str "binding"), ("status", .str "active"), ("team_id", .str "T1"),
      ("channel_id", .str "C1"), ("bot_user_id", .str "U0"), ("version", .int 1)]),
    ("deliveries", .arr [.obj [("id", .str "d1"), ("binding_id", .str "binding"), ("team_id", .str "T1"),
      ("binding_version", .int 1), ("status", .str "pending"), ("body_sha256", .str sampleBody),
      ("event_id", .str "Ev1"), ("payload", .obj [("type", .str "event_callback"), ("api_app_id", .str "A0C9XC9JHTK"),
        ("team_id", .str "T1"), ("event_id", .str "Ev1"), ("event", .obj [("type", .str "app_mention"),
          ("channel", .str "C1"), ("user", .str "U1"), ("text", .str "<@U0> hello"), ("ts", .str "1700000000.1")])])]])]

abbrev operationDigest : Sha256 :=
  ⟨fun _ => "d9ecce8fce31357eab07993e653c024bd774e8bc49e1ad4828f68cc66ed9cb4f"⟩

def sampleEvents : List Event :=
  [.poll, .respond (.received sampleInbox), .sendMessage (.result "response" false),
    .call "chat.postMessage" [("channel", .str "C1"), ("text", .str "hi")] true,
    .callEnd (.received (.obj [("ok", .bool true)])), .finish .returned, .respond (.received (.obj [("ok", .bool true)]))]

end OpenAgent.Channels.HostedSlack
