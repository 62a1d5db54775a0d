import OpenAgent.Gateway.Capabilities.Holding

namespace OpenAgent.Gateway.Capabilities

open Py List World Dict Capabilities

def held (w : World) (b : BindingId) (c : ConnId) : Nat := (w.conn c).clientShells.values.count b

def stored (b : BindingId) (d : DetachedClientShells) : Nat := d.bindings.values.count b

def slots (w : World) (b : BindingId) : Nat :=
  w.connections.sumBy (fun _ c => held w b c) + w.detachedShells.sumBy (fun _ d => stored b d)

structure Custody (w : World) : Prop where
  slots : ∀ b, (w.binding b).completed = false → slots w b = if b < w.nextBinding then 1 else 0
  apart : ∀ k c g, w.connections.get? k = some c → w.detachedShells.get? (k.1, k.2, g) = none
  fits : overCapacity w.detachedShells = false

/-- Every binding that still runs is kept in as many places as before. -/
structure Keeps (w v : World) : Prop where
  nextBinding : v.nextBinding = w.nextBinding
  kept : ∀ b, (v.binding b).completed = false → (w.binding b).completed = false
  slots : ∀ b, (v.binding b).completed = false → slots v b = slots w b

theorem Keeps.custody {w v : World} (h : Keeps w v) (hw : Custody w)
    (ha : ∀ k c g, v.connections.get? k = some c → v.detachedShells.get? (k.1, k.2, g) = none)
    (hf : overCapacity v.detachedShells = false) : Custody v where
  slots := by
    intro b hb
    rw [h.slots b hb, hw.slots b (h.kept b hb), h.nextBinding]
  apart := ha
  fits := hf

structure Stays (w v : World) : Prop where
  connections : v.connections = w.connections
  ledger : v.detachedShells = w.detachedShells
  shells : ∀ c, (v.conn c).clientShells = (w.conn c).clientShells
  nextBinding : v.nextBinding = w.nextBinding
  kept : ∀ b, (v.binding b).completed = false → (w.binding b).completed = false

namespace Stays

variable {w v u : World}

theorem refl (w : World) : Stays w w := ⟨rfl, rfl, fun _ => rfl, rfl, fun _ h => h⟩

theorem trans (h : Stays w v) (k : Stays v u) : Stays w u :=
  ⟨k.connections.trans h.connections, k.ledger.trans h.ledger, fun c => (k.shells c).trans (h.shells c),
    k.nextBinding.trans h.nextBinding, fun b hb => h.kept b (k.kept b hb)⟩

theorem emit (w : World) (e : Effect) : Stays w (w.emit e) := ⟨rfl, rfl, fun _ => rfl, rfl, fun _ h => h⟩

theorem of_inert (h : Inert w v) : Stays w v := by
  have hr := h.rest
  refine ⟨?_, ?_, h.shells, ?_, fun b hb => ?_⟩
  · rw [hr]
  · rw [hr]
  · rw [hr]
  · rw [hr] at hb
    exact hb

theorem of_completes {bs : List BindingId} (h : Completes w v bs) : Stays w v := by
  obtain ⟨tr, hv, _⟩ := h.rest
  refine ⟨?_, ?_, fun c => ?_, ?_, fun b hb => ?_⟩
  · rw [hv]
  · rw [hv]
  · rw [hv]
  · rw [hv]
  · rw [h.completed, Bool.or_eq_false_iff] at hb
    exact hb.1

theorem slots (h : Stays w v) (b : BindingId) : slots v b = slots w b := by
  simp only [OpenAgent.Gateway.Capabilities.slots, held, h.connections, h.ledger, h.shells]

theorem keeps (h : Stays w v) : Keeps w v := ⟨h.nextBinding, h.kept, fun b _ => h.slots b⟩

theorem custody (h : Stays w v) (hw : Custody w) : Custody v := by
  refine h.keeps.custody hw (fun k c g hc => ?_) ?_
  · rw [h.connections] at hc
    rw [h.ledger]
    exact hw.apart k c g hc
  · rw [h.ledger]
    exact hw.fits

end Stays

theorem stored_sum_zero {ds : List DetachedClientShells} {b : BindingId}
    (h : b ∉ ds.flatMap (fun d => d.bindings.values)) : (ds.map (stored b)).sum = 0 := by
  rw [List.sum_eq_zero_iff_forall_eq_nat]
  intro n hn
  obtain ⟨d, hd, rfl⟩ := List.mem_map.mp hn
  exact List.count_eq_zero.mpr fun hb => h (List.mem_flatMap.mpr ⟨d, hd, hb⟩)

theorem stored_values (ledger : Ledger) (b : BindingId) :
    ledger.sumBy (fun _ d => stored b d) = (ledger.values.map (stored b)).sum := by
  rw [sumBy, values, map_map]
  rfl

theorem Completes.not_mem {w v : World} {bs : List BindingId} (h : Completes w v bs) {b : BindingId}
    (hb : (v.binding b).completed = false) : b ∉ bs := by
  rw [h.completed, Bool.or_eq_false_iff] at hb
  simpa using hb.2

theorem values_of_size {d : Dict String BindingId} (h : d.size = 0) : d.values = [] := by
  rw [values, length_eq_zero_iff.mp h]
  rfl

theorem held_congr {w v : World} {d : Dict Key ConnId} (b : BindingId)
    (h : ∀ k c, d.get? k = some c → (v.conn c).clientShells = (w.conn c).clientShells) :
    d.sumBy (fun _ c => held v b c) = d.sumBy (fun _ c => held w b c) := by
  apply sumBy_congr
  intro k c hc
  rw [held, h k c hc, held]

section Leaving

variable {w : World} {c : ConnId} (now : Int)

theorem erased_ne (hs : RegistrySound w) {k : Key} {d : ConnId}
    (h : (w.connections.erase (w.conn c).key).get? k = some d) : d ≠ c := by
  rw [get?_erase] at h
  split at h
  · cases h
  rename_i hk
  rintro rfl
  exact hk (hs.keyed k d h).symm

theorem removeConnection_eq (hr : w.registered c) : w.removeConnection c =
    ({ w with connections := w.connections.erase (w.conn c).key } : World).emit (.connectionRemoved c) := by
  rw [removeConnection, if_pos hr]

/-- A connection has left the registry: its shells are in the ledger, and what the sweep of the ledger
took out is still to be completed. -/
structure Departs (w : World) (c : ConnId) (detachedAt : Int) (v : World) (bs : List BindingId) : Prop where
  connections : v.connections = w.connections.erase (w.conn c).key
  binding : v.binding = w.binding
  nextBinding : v.nextBinding = w.nextBinding
  others : ∀ d, d ≠ c → (v.conn d).clientShells = (w.conn d).clientShells
  sockets : ∀ d, (v.conn d).wsClosed = (w.conn d).wsClosed
  ledger : ((w.conn c).clientShells.size = 0 ∧ v.detachedShells = w.detachedShells ∧ bs = []) ∨
    ∃ swept, swept = expireDetachedShells (ledgerWith w.detachedShells (w.conn c).clientHost
        (w.conn c).clientShells detachedAt) detachedAt ∧
      v.detachedShells = swept.1 ∧ bs = swept.2.flatMap (fun d => d.bindings.values)

theorem leave_departs (hr : w.registered c) (detachedAt : Int) : ∃ v bs, Departs w c detachedAt v bs ∧
      Completes v ((w.removeConnection c).detachShells c detachedAt now) bs := by
  obtain ⟨u, hu⟩ : ∃ u, u = w.removeConnection c := ⟨_, rfl⟩
  rw [← hu]
  rw [removeConnection_eq hr] at hu
  simp only [detachShells]
  split
  · rename_i hz
    subst hu
    refine ⟨_, [], ?_, Completes.refl _⟩
    exact ⟨rfl, rfl, rfl, fun _ _ => rfl, fun _ => rfl, .inl ⟨hz, rfl, rfl⟩⟩
  subst hu
  refine ⟨_, _, ?_, orphanDetached_completes _ _ _ now⟩
  refine ⟨rfl, rfl, rfl, fun d hd => ?_, fun d => ?_, .inr ⟨_, rfl, rfl, rfl⟩⟩
  · simp [setConn, emit, hd]
  · by_cases hd : d = c <;> simp [setConn, emit, hd]

theorem Departs.slots {detachedAt : Int} {v : World} {bs : List BindingId} (h : Departs w c detachedAt v bs)
    (hs : RegistrySound w) (hw : Custody w) (hr : w.registered c) {b : BindingId} (hb : b ∉ bs) :
    slots v b = slots w b := by
  have hoth : (w.connections.erase (w.conn c).key).sumBy (fun _ d => held v b d) =
      (w.connections.erase (w.conn c).key).sumBy (fun _ d => held w b d) :=
    held_congr b fun k d hd => h.others d (erased_ne hs hd)
  have hsum : w.connections.sumBy (fun _ d => held w b d) =
      held w b c + (w.connections.erase (w.conn c).key).sumBy (fun _ d => held w b d) :=
    sumBy_erase w.connections _ hr
  have hled : v.detachedShells.sumBy (fun _ d => stored b d) =
      held w b c + w.detachedShells.sumBy (fun _ d => stored b d) := by
    rcases h.ledger with ⟨hz, hl, _⟩ | ⟨swept, rfl, hl, rfl⟩
    · rw [hl, held, values_of_size hz, count_nil, Nat.zero_add]
    have hnone : w.detachedShells.get? (w.conn c).clientHost = none := hw.apart _ c _ hr
    have hx := @expire_sum detachedAt (ledgerWith w.detachedShells (w.conn c).clientHost
      (w.conn c).clientShells detachedAt) (stored b)
    rw [stored_sum_zero hb, Nat.add_zero] at hx
    rw [hl, hx, ledgerWith, sumBy_set, erase_of_get?_none _ hnone, hnone]
    simp only [Option.map_none, Option.getD_none, update_empty]
    rfl
  rw [Capabilities.slots, h.connections, hoth, hled, Capabilities.slots, hsum]
  omega

theorem Departs.custody {detachedAt : Int} {v u : World} {bs : List BindingId}
    (h : Departs w c detachedAt v bs) (hc : Completes v u bs) (hs : RegistrySound w) (hw : Custody w)
    (hr : w.registered c) : Custody u := by
  have hu := Stays.of_completes hc
  have hkee : Keeps w u := by
    refine ⟨hu.nextBinding.trans h.nextBinding, fun b hb => h.binding ▸ hu.kept b hb, fun b hb => ?_⟩
    rw [hu.slots, h.slots hs hw hr (hc.not_mem hb)]
  refine hkee.custody hw (fun k d g hd => ?_) ?_
  · rw [hu.connections, h.connections, get?_erase] at hd
    split at hd
    · cases hd
    rename_i hk
    rw [hu.ledger, Option.eq_none_iff_forall_ne_some]
    intro e he
    have hapa := hw.apart k d g hd
    rcases h.ledger with ⟨_, hl, _⟩ | ⟨swept, rfl, hl, _⟩
    · rw [hl, hapa] at he
      cases he
    rw [hl] at he
    have he := (expire_get? _ he).1
    rw [ledgerWith_get?, hapa] at he
    split at he
    · rename_i hhost
      exact hk (congrArg (fun x : HostKey => (x.1, x.2.1)) hhost)
    · cases he
  · rw [hu.ledger]
    rcases h.ledger with ⟨_, hl, _⟩ | ⟨swept, rfl, hl, _⟩
    · rw [hl]
      exact hw.fits
    · rw [hl]
      exact expire_fits _

theorem leave_custody (hs : RegistrySound w) (hw : Custody w) (hr : w.registered c) (detachedAt : Int) :
    Custody ((w.removeConnection c).detachShells c detachedAt now) := by
  obtain ⟨v, bs, hv, hc⟩ := leave_departs now hr detachedAt
  exact hv.custody hc hs hw hr

theorem unregister_custody (hs : RegistrySound w) (hw : Custody w) (code message : String) :
    Custody (w.unregister c code message now) := by
  refine (Stays.of_inert (Inert.failPending _ c code message)).custody ?_
  split
  · rename_i hr
    exact leave_custody now hs hw hr now
  · exact hw

theorem dropStale_custody (hs : RegistrySound w) (hw : Custody w) (checkedAt : Int) :
    Custody (World.dropStale checkedAt now w c) := by
  rw [dropStale]
  split
  · rename_i hr
    exact leave_custody now hs hw hr checkedAt
  · exact hw

end Leaving

section Sweeping

variable (now checkedAt : Int)

def InGrace (w : World) : Prop :=
  ∀ k d, w.detachedShells.get? k = some d → graceOver checkedAt d = false

variable {checkedAt}

theorem dropStale_sweeps (w : World) (c : ConnId) : InGrace checkedAt (World.dropStale checkedAt now w c) ∨
      ((World.dropStale checkedAt now w c).detachedShells = w.detachedShells ∧
        (w.registered c → (w.conn c).clientShells.size = 0)) := by
  rw [dropStale]
  split
  · rename_i hr
    obtain ⟨v, bs, hv, hc⟩ := leave_departs now hr checkedAt
    have hl := (Stays.of_completes hc).ledger
    rcases hv.ledger with ⟨hz, hsame, _⟩ | ⟨swept, rfl, hswe, _⟩
    · exact .inr ⟨hl.trans hsame, fun _ => hz⟩
    refine .inl fun k d hd => ?_
    rw [hl, hswe] at hd
    exact (expire_get? _ hd).2
  · rename_i hr
    exact .inr ⟨rfl, fun h => absurd h hr⟩

theorem foldl_dropStale_inGrace (cs : List ConnId) {w : World} (h : InGrace checkedAt w) :
    InGrace checkedAt (cs.foldl (World.dropStale checkedAt now) w) := by
  induction cs generalizing w with
  | nil => exact h
  | cons c cs ih =>
    apply ih
    rcases dropStale_sweeps now w c with hv | ⟨hl, _⟩
    · exact hv
    intro k d hd
    rw [hl] at hd
    exact h k d hd

theorem foldl_dropStale_ledger (cs : List ConnId) (w : World) :
    InGrace checkedAt (cs.foldl (World.dropStale checkedAt now) w) ∨
      (cs.foldl (World.dropStale checkedAt now) w).detachedShells = w.detachedShells := by
  induction cs generalizing w with
  | nil => exact .inr rfl
  | cons c cs ih =>
    rcases dropStale_sweeps now w c with hv | ⟨hl, _⟩
    · exact .inl (foldl_dropStale_inGrace now cs hv)
    rcases ih (dropStale checkedAt now w c) with hv | hv
    · exact .inl hv
    · exact .inr (hv.trans hl)

theorem dropStale_other {w : World} {c d : ConnId} (hd : w.registered d)
    (hne : d ≠ c) : (World.dropStale checkedAt now w c).registered d ∧
      ((World.dropStale checkedAt now w c).conn d).clientShells = (w.conn d).clientShells := by
  have hkey := identity_key ((dropStale_removes w c now checkedAt).identity d)
  rw [registered, hkey]
  rw [dropStale]
  split
  · rename_i hr
    obtain ⟨v, bs, hv, hc⟩ := leave_departs now hr checkedAt
    have hu := Stays.of_completes hc
    refine ⟨?_, (hu.shells d).trans (hv.others d hne)⟩
    rw [hu.connections, hv.connections, get?_erase_of_ne]
    · exact hd
    intro hk
    rw [registered, hk, hr] at hd
    exact hne (Option.some.inj hd).symm
  · exact ⟨hd, rfl⟩

theorem foldl_dropStale_sweeps {cs : List ConnId} {w : World} (hs : RegistrySound w) {c : ConnId}
    (hc : c ∈ cs) (hr : w.registered c) (hz : (w.conn c).clientShells.size ≠ 0) :
    InGrace checkedAt (cs.foldl (World.dropStale checkedAt now) w) := by
  induction cs generalizing w with
  | nil => cases hc
  | cons d cs ih =>
    rcases dropStale_sweeps now w d with hv | ⟨_, hemp⟩
    · exact foldl_dropStale_inGrace now cs hv
    have hne : c ≠ d := by
      rintro rfl
      exact hz (hemp hr)
    obtain ⟨hr', hshe⟩ := dropStale_other now hr hne
    have hc' : c ∈ cs := (mem_cons.mp hc).resolve_left hne
    apply ih ((dropStale_removes w d now checkedAt).toShrinks.sound hs) hc' hr'
    rw [hshe]
    exact hz

theorem foldl_dropStale_custody (cs : List ConnId) {w : World} (hs : RegistrySound w) (hw : Custody w) :
    Custody (cs.foldl (World.dropStale checkedAt now) w) := by
  induction cs generalizing w with
  | nil => exact hw
  | cons c cs ih =>
    exact ih ((dropStale_removes w c now checkedAt).toShrinks.sound hs) (dropStale_custody now hs hw checkedAt)

theorem dropStale_wsClosed (w : World) (c d : ConnId) :
    ((World.dropStale checkedAt now w c).conn d).wsClosed = (w.conn d).wsClosed := by
  rw [dropStale]
  split
  · rename_i hr
    obtain ⟨v, bs, hv, hc⟩ := leave_departs now hr checkedAt
    obtain ⟨_, hu, _⟩ := hc.rest
    rw [hu]
    exact hv.sockets d
  · rfl

theorem foldl_dropStale_wsClosed (cs : List ConnId) (w : World) (d : ConnId) :
    ((cs.foldl (World.dropStale checkedAt now) w).conn d).wsClosed = (w.conn d).wsClosed := by
  induction cs generalizing w with
  | nil => rfl
  | cons c cs ih => exact (ih _).trans (dropStale_wsClosed now w c d)

def Finished (w : World) (ds : List DetachedClientShells) : Prop :=
  ∀ d ∈ ds, ∀ b ∈ d.bindings.values, (w.binding b).completed = true

theorem Finished.mono {w v : World} {ds : List DetachedClientShells} (h : Finished w ds)
    (hv : ∀ b, (w.binding b).completed = true → (v.binding b).completed = true) : Finished v ds :=
  fun d hd b hb => hv b (h d hd b hb)

theorem reapRest_stays (w : World) (expired : List DetachedClientShells) (stale : List ConnId) :
    Stays w (w.reapRest now expired stale).1 := by
  induction stale generalizing w with
  | nil => exact Stays.of_completes (orphanDetached_completes w expired "CLIENT_OFFLINE" now)
  | cons c stale ih =>
    have hfail := Stays.of_inert (Inert.failPending w c "CLIENT_OFFLINE" "client capability heartbeat expired")
    rw [reapRest]
    split
    · exact hfail.trans (ih _)
    · exact hfail

theorem reapRest_finished {w : World} (expired : List DetachedClientShells) {stale : List ConnId}
    (h : ∀ c ∈ stale, (w.conn c).wsClosed = true) :
    Finished (w.reapRest now expired stale).1 expired := by
  induction stale generalizing w with
  | nil =>
    intro d hd b hb
    have hc := orphanDetached_completes w expired "CLIENT_OFFLINE" now
    rw [reapRest, hc.completed, Bool.or_eq_true, decide_eq_true_eq]
    exact .inr (mem_flatMap.mpr ⟨d, hd, hb⟩)
  | cons c stale ih =>
    rw [reapRest, if_pos (h c mem_cons_self)]
    apply ih
    intro d hd
    by_cases hdc : d = c
    · subst hdc
      simpa [failPending, setConn] using h d mem_cons_self
    · simpa [failPending, setConn, hdc] using h d (mem_cons_of_mem c hd)

theorem Finished.not_mem {w : World} {ds : List DetachedClientShells} (h : Finished w ds) {b : BindingId}
    (hb : (w.binding b).completed = false) : b ∉ ds.flatMap (fun d => d.bindings.values) := by
  intro hm
  obtain ⟨d, hd, hm⟩ := mem_flatMap.mp hm
  rw [h d hd b hm] at hb
  cases hb

/-- A sweep loses no running shell: it does not suspend between taking expired entries out of the
ledger and completing them, or there is none that still runs. -/
def SweepsWhole (w : World) (checkedAt maxIdle : Int) : Prop :=
  (∃ c ∈ w.staleConnections checkedAt maxIdle, (w.conn c).wsClosed = false) →
    (∃ c ∈ w.staleConnections checkedAt maxIdle, (w.conn c).clientShells.size ≠ 0) ∨
    ∀ k d, w.detachedShells.get? k = some d → graceOver checkedAt d = true →
      ∀ b ∈ d.bindings.values, (w.binding b).completed = true

theorem foldl_dropStale_kept (cs : List ConnId) (w : World) {b : BindingId} (hb : (w.binding b).completed = true) :
    ((cs.foldl (World.dropStale checkedAt now) w).binding b).completed = true :=
  (Settling.foldl (fun w c => dropStale_settling w c now checkedAt) cs w).kept b hb

theorem staleConnections_registered {w : World} (hs : RegistrySound w) {maxIdle : Int} {c : ConnId}
    (hc : c ∈ w.staleConnections checkedAt maxIdle) : w.registered c := by
  obtain ⟨k, hk⟩ := (mem_values_iff _ _).mp (mem_filter.mp hc).1
  exact hs.registered hk

theorem foldl_dropStale_finished {w : World} (hs : RegistrySound w) (hw : Custody w) {cs : List ConnId}
    (hr : ∀ c ∈ cs, w.registered c)
    (h : (∃ c ∈ cs, (w.conn c).clientShells.size ≠ 0) ∨
      ∀ k d, w.detachedShells.get? k = some d → graceOver checkedAt d = true →
        ∀ b ∈ d.bindings.values, (w.binding b).completed = true) :
    Finished (cs.foldl (World.dropStale checkedAt now) w)
      (expireDetachedShells (cs.foldl (World.dropStale checkedAt now) w).detachedShells checkedAt).2 := by
  rw [expire_of_fits _ (foldl_dropStale_custody now cs hs hw).fits]
  intro d hd b hb
  rw [mem_filter, mem_values_iff] at hd
  obtain ⟨⟨k, hk⟩, hover⟩ := hd
  have hin : ¬ InGrace checkedAt (cs.foldl (dropStale checkedAt now) w) := by
    intro hg
    rw [hg k d hk] at hover
    cases hover
  rcases h with ⟨c, hc, hz⟩ | hdone
  · exact absurd (foldl_dropStale_sweeps now hs hc (hr c hc) hz) hin
  rcases foldl_dropStale_ledger now cs w with hg | hl
  · exact absurd hg hin
  · rw [hl] at hk
    exact foldl_dropStale_kept now cs w (hdone k d hk hover b hb)

theorem reapStale_finished {w : World} (hs : RegistrySound w) (hw : Custody w) {maxIdle : Int}
    (hC : SweepsWhole w checkedAt maxIdle) :
    Finished (w.reapStale checkedAt maxIdle now).1 (w.reapLocked checkedAt maxIdle now).2 := by
  by_cases hopen : ∃ c ∈ w.staleConnections checkedAt maxIdle, (w.conn c).wsClosed = false
  · have hloc : Finished (w.reapLocked checkedAt maxIdle now).1 (w.reapLocked checkedAt maxIdle now).2 :=
      foldl_dropStale_finished now hs hw (fun c hc => staleConnections_registered hs hc) (hC hopen)
    refine hloc.mono fun b hb => ?_
    by_contra hv
    have hk := (reapRest_stays now (w.reapLocked checkedAt maxIdle now).1
      (w.reapLocked checkedAt maxIdle now).2 (w.staleConnections checkedAt maxIdle)).kept b
      (Bool.eq_false_iff.mpr hv)
    rw [hk] at hb
    cases hb
  push Not at hopen
  refine reapRest_finished now _ fun c hc => ?_
  have hsoc : ((w.reapLocked checkedAt maxIdle now).1.conn c).wsClosed = (w.conn c).wsClosed :=
    foldl_dropStale_wsClosed now _ w c
  rw [hsoc]
  exact Bool.eq_true_of_not_eq_false (hopen c hc)

theorem reapStale_custody {w : World} (hs : RegistrySound w) (hw : Custody w) {maxIdle : Int}
    (hC : SweepsWhole w checkedAt maxIdle) : Custody (w.reapStale checkedAt maxIdle now).1 := by
  obtain ⟨dropped, hdro⟩ : ∃ dropped, dropped =
    (w.staleConnections checkedAt maxIdle).foldl (dropStale checkedAt now) w := ⟨_, rfl⟩
  have hd : Custody dropped := hdro ▸ foldl_dropStale_custody now _ hs hw
  have hloc : w.reapLocked checkedAt maxIdle now =
      ({ dropped with detachedShells := (expireDetachedShells dropped.detachedShells checkedAt).1 },
        (expireDetachedShells dropped.detachedShells checkedAt).2) := by
    rw [hdro]
    rfl
  have hfin := reapStale_finished now hs hw hC
  have hstay := reapRest_stays now (w.reapLocked checkedAt maxIdle now).1
    (w.reapLocked checkedAt maxIdle now).2 (w.staleConnections checkedAt maxIdle)
  change Stays _ (w.reapStale checkedAt maxIdle now).1 at hstay
  rw [hloc] at hfin hstay
  have hkee : Keeps dropped (w.reapStale checkedAt maxIdle now).1 := by
    refine ⟨hstay.nextBinding, hstay.kept, fun b hb => ?_⟩
    have hsum := @expire_sum checkedAt dropped.detachedShells (stored b)
    rw [stored_sum_zero (hfin.not_mem hb), Nat.add_zero] at hsum
    rw [hstay.slots, slots, hsum]
    rfl
  refine hkee.custody hd (fun k c g hc => ?_) ?_
  · rw [hstay.connections] at hc
    rw [hstay.ledger, Option.eq_none_iff_forall_ne_some]
    intro d he
    have hapa := hd.apart k c g hc
    rw [(expire_get? _ he).1] at hapa
    cases hapa
  · rw [hstay.ledger]
    exact expire_fits _

end Sweeping

section Closing

variable (now : Int)

theorem setSweep_stays (w : World) (n : Nat) (s : Option Sweep) : Stays w (w.setSweep n s) :=
  ⟨rfl, rfl, fun _ => rfl, rfl, fun _ h => h⟩

theorem orphanLedger_custody {w : World} (hw : Custody w) : Custody (w.orphanLedger now) := by
  have hc := orphanDetached_completes { w with detachedShells := empty } w.detachedShells.values
    "GATEWAY_SHUTDOWN" now
  have hu := Stays.of_completes hc
  change Stays _ (w.orphanLedger now) at hu
  have hkee : Keeps w (w.orphanLedger now) := by
    refine ⟨hu.nextBinding, hu.kept, fun b hb => ?_⟩
    have hz := stored_sum_zero (hc.not_mem hb)
    rw [hu.slots, slots, slots]
    rw [stored_values w.detachedShells, hz]
    rfl
  refine hkee.custody hw (fun k c g _ => ?_) ?_
  · rw [hu.ledger]
    rfl
  · rw [hu.ledger]
    rfl

theorem closeRest_custody (cs : List ConnId) {w : World} (hs : RegistrySound w) (hw : Custody w) :
    Custody (w.closeRest now cs).1 := by
  induction cs generalizing w with
  | nil => exact orphanLedger_custody now hw
  | cons c cs ih =>
    have hclo := unregister_custody (c := c) now hs hw "CLIENT_OFFLINE" "client capability host disconnected"
    rw [closeRest]
    split
    · exact ih ((unregister_removes w c now _ _).toShrinks.sound hs) hclo
    · exact hclo

theorem resumeSweep_custody (s : Sweep) {w : World} (hs : RegistrySound w) (hw : Custody w) :
    Custody (w.resumeSweep now s).1 := by
  cases s with
  | reap stale expired => exact (reapRest_stays now w expired stale).custody hw
  | shutdown rest => exact closeRest_custody now rest hs hw

end Closing

section Revoking

variable (now : Int)

theorem foldl_removeConnection_rest (cs : List ConnId) (w : World) :
    ∃ conns tr, cs.foldl World.removeConnection w = { w with connections := conns, trace := tr } ∧
      (∀ k c, conns.get? k = some c → w.connections.get? k = some c) ∧
      ∀ k c, w.connections.get? k = some c → c ∉ cs → conns.get? k = some c := by
  induction cs generalizing w with
  | nil => exact ⟨w.connections, w.trace, rfl, fun _ _ h => h, fun _ _ h _ => h⟩
  | cons d cs ih =>
    obtain ⟨conns, tr, hfold, hsub, hkeep⟩ := ih (w.removeConnection d)
    rw [foldl_cons, hfold]
    by_cases hr : w.registered d
    · rw [removeConnection_eq hr] at hsub hkeep ⊢
      refine ⟨conns, tr, rfl, fun k c hc => ?_, fun k c hc hm => ?_⟩
      · have he := hsub k c hc
        simp only [emit, get?_erase] at he
        split at he
        · cases he
        · exact he
      rw [mem_cons, not_or] at hm
      apply hkeep k c _ hm.2
      refine (get?_erase_of_ne _ ?_).trans hc
      rintro rfl
      exact hm.1 (Option.some.inj (hc.symm.trans hr))
    have hsame : w.removeConnection d = w := if_neg hr
    rw [hsame] at hsub hkeep ⊢
    exact ⟨conns, tr, rfl, hsub, fun k c hc hm => hkeep k c hc fun h => hm (mem_cons_of_mem d h)⟩

theorem revokeConnection_stays (reason : String) (w : World) (c : ConnId) :
    Stays w (World.revokeConnection reason now w c) :=
  (Stays.of_inert (Inert.failPending w c "CLIENT_REVOKED" reason)).trans
    (Stays.of_completes (orphanShellBindings_completes _ _ _ now))

theorem foldl_revokeConnection_stays (reason : String) (cs : List ConnId) (w : World) :
    Stays w (cs.foldl (World.revokeConnection reason now) w) := by
  induction cs generalizing w with
  | nil => exact Stays.refl w
  | cons c cs ih => exact (revokeConnection_stays now reason w c).trans (ih _)

theorem foldl_revokeConnection_held (reason : String) {cs : List ConnId} {w : World} {b : BindingId}
    (hb : ((cs.foldl (World.revokeConnection reason now) w).binding b).completed = false)
    {c : ConnId} (hc : c ∈ cs) : held w b c = 0 := by
  induction cs generalizing w with
  | nil => cases hc
  | cons d cs ih =>
    rcases mem_cons.mp hc with rfl | hc
    · have hlat := (foldl_revokeConnection_stays now reason cs _).kept b hb
      exact count_eq_zero.mpr
        ((orphanShellBindings_completes _ (w.conn c).clientShells.values "CLIENT_REVOKED" now).not_mem hlat)
    · have hd := ih hb hc
      rwa [held, (revokeConnection_stays now reason w d).shells c] at hd

theorem closeDevice_rest (w : World) (device reason : String) (epoch : Option Int) :
    ∃ conns tr, Stays { w.blocked device epoch with connections := conns, trace := tr }
        (w.closeDevice device reason epoch now) ∧
      (∀ k c, conns.get? k = some c → w.connections.get? k = some c) ∧
      ∀ b, ((w.closeDevice device reason epoch now).binding b).completed = false →
        (∀ k c, w.connections.get? k = some c → conns.get? k = none → held w b c = 0) ∧
        b ∉ (w.detachedShells.filter (fun k _ => k.1 == device)).values.flatMap (fun d => d.bindings.values) := by
  obtain ⟨conns, tr, hdro, hsub, hkeep⟩ := foldl_removeConnection_rest
    (w.revokedConnections device (w.revokedBelow device epoch)) (w.blocked device epoch)
  have hrev := foldl_revokeConnection_stays now reason (w.revokedConnections device (w.revokedBelow device epoch))
    { w.blocked device epoch with connections := conns, trace := tr }
  have hc : Completes _ (w.closeDevice device reason epoch now) _ := orphanDetached_completes
    ((w.revokedConnections device (w.revokedBelow device epoch)).foldl (revokeConnection reason now)
      ((w.revokedConnections device (w.revokedBelow device epoch)).foldl removeConnection
        (w.blocked device epoch)))
    (w.detachedShells.filter (fun k _ => k.1 == device)).values "CLIENT_REVOKED" now
  rw [hdro] at hc
  refine ⟨conns, tr, hrev.trans (Stays.of_completes hc), hsub, fun b hb => ⟨?_, hc.not_mem hb⟩⟩
  intro k c hk hnone
  have hmem : c ∈ w.revokedConnections device (w.revokedBelow device epoch) := by
    by_contra hm
    rw [hkeep k c hk hm] at hnone
    cases hnone
  exact foldl_revokeConnection_held now reason ((Stays.of_completes hc).kept b hb) hmem

theorem closeDevice_custody {w : World} (hw : Custody w) (device reason : String) (epoch : Option Int) :
    Custody (w.closeDevice device reason epoch now) := by
  obtain ⟨conns, tr, hstay, hsub, hgone⟩ := closeDevice_rest now w device reason epoch
  have hkee : Keeps w (w.closeDevice device reason epoch now) := by
    refine ⟨hstay.nextBinding, hstay.kept, fun b hb => ?_⟩
    obtain ⟨hheld, hsto⟩ := hgone b hb
    have hl := sumBy_filter w.detachedShells (fun _ d => stored b d) (fun k _ => k.1 == device)
    rw [stored_values (w.detachedShells.filter _), stored_sum_zero hsto, Nat.zero_add] at hl
    rw [hstay.slots, slots, slots, hl]
    exact congrArg (· + _) (sumBy_of_subset hsub hheld)
  refine hkee.custody hw (fun k c g hk => ?_) ?_
  · rw [hstay.connections] at hk
    rw [hstay.ledger, blocked]
    rw [get?_filter, hw.apart k c g (hsub k c hk), Option.filter_none]
  rw [hstay.ledger]
  refine fits_of_subset hw.fits fun k d hd => ?_
  rw [blocked] at hd
  rw [get?_filter, Option.filter_eq_some_iff] at hd
  exact hd.1

end Revoking

section Registering

variable {w : World} {conn : CapabilityConnection} {now : Int}

theorem install_stored {b : BindingId} (hb : b ∉ (w.displaced conn now).flatMap (fun d => d.bindings.values)) :
    w.detachedShells.sumBy (fun _ d => stored b d) = ((w.restorable conn now).map (stored b)).getD 0 +
      (w.install conn now).detachedShells.sumBy (fun _ d => stored b d) := by
  have hzero : ∀ d ∈ w.displaced conn now, stored b d = 0 := fun d hd =>
    count_eq_zero.mpr fun hm => hb (mem_flatMap.mpr ⟨d, hd, hm⟩)
  have hoth : ((w.detachedShells.erase conn.clientHost).filter
      (fun k _ => otherGeneration conn.key conn.generation k)).sumBy (fun _ d => stored b d) = 0 := by
    rw [sumBy_eq_zero_iff]
    intro k d hd
    exact hzero d (mem_append_right _ ((mem_values_iff _ _).mpr ⟨k, hd⟩))
  have hrest : (w.detachedShells.erase conn.clientHost).sumBy (fun _ d => stored b d) =
      (w.install conn now).detachedShells.sumBy (fun _ d => stored b d) := by
    rw [sumBy_filter _ _ (fun k _ => otherGeneration conn.key conn.generation k), hoth, Nat.zero_add]
    rfl
  rw [← hrest]
  cases hg : w.detachedShells.get? conn.clientHost with
  | none =>
    rw [restorable, hg, erase_of_get?_none _ hg]
    simp
  | some d =>
    rw [sumBy_erase _ _ hg, restorable, hg]
    cases hover : graceOver now d with
    | true =>
      have hmem : d ∈ w.displaced conn now := by
        apply mem_append_left
        rw [hg, Option.filter_some, hover]
        exact mem_singleton_self d
      rw [hzero d hmem, Option.filter_some, hover]
      rfl
    | false =>
      rw [Option.filter_some, hover]
      rfl

/-- What a registration does to the shells: the new connection gets what it restores and what the
connection that it replaces held; what it displaces is completed. -/
structure Takes (w : World) (conn : CapabilityConnection) (now : Int) (v : World) : Prop where
  connections : v.connections = w.connections.set conn.key w.nextConn
  ledger : v.detachedShells = (w.install conn now).detachedShells
  nextBinding : v.nextBinding = w.nextBinding
  kept : ∀ b, (v.binding b).completed = false → (w.binding b).completed = false
  others : ∀ c, c ≠ w.nextConn → w.connections.get? conn.key ≠ some c →
    (v.conn c).clientShells = (w.conn c).clientShells
  displaced : ∀ b, (v.binding b).completed = false → b ∉ (w.displaced conn now).flatMap (fun d => d.bindings.values)
  taken : ∀ b, (v.binding b).completed = false → held v b w.nextConn =
    ((w.restorable conn now).map (stored b)).getD 0 + ((w.connections.get? conn.key).map (held w b)).getD 0

theorem Takes.custody {v : World} (h : Takes w conn now v) (hs : RegistrySound w) (hw : Custody w) : Custody v := by
  have hoth : ∀ b, (w.connections.erase conn.key).sumBy (fun _ c => held v b c) =
      (w.connections.erase conn.key).sumBy (fun _ c => held w b c) := by
    intro b
    refine held_congr b fun k c hc => ?_
    rw [get?_erase] at hc
    split at hc
    · cases hc
    rename_i hk
    refine h.others c (hs.known k c hc).ne fun hold => hk ?_
    rw [← hs.keyed k c hc, ← hs.keyed _ c hold]
  have hkee : Keeps w v := by
    refine ⟨h.nextBinding, h.kept, fun b hb => ?_⟩
    have hcon : w.connections.sumBy (fun _ c => held w b c) = ((w.connections.get? conn.key).map (held w b)).getD 0 +
          (w.connections.erase conn.key).sumBy (fun _ c => held w b c) := by
      cases ho : w.connections.get? conn.key with
      | none =>
        rw [erase_of_get?_none _ ho]
        simp
      | some old => exact sumBy_erase _ _ ho
    rw [slots, h.connections, sumBy_set, h.taken b hb, hoth, h.ledger,
      slots, hcon, install_stored (h.displaced b hb)]
    omega
  refine hkee.custody hw (fun k c g hk => ?_) ?_
  · rw [h.ledger, Option.eq_none_iff_forall_ne_some]
    intro d hd
    obtain ⟨hd, hhost, hothe⟩ := (install_detached w now conn).mp hd
    rw [h.connections, get?_set] at hk
    split at hk
    · rename_i hkey
      subst hkey
      have hgen : g = conn.generation := by simpa [otherGeneration] using hothe
      exact hhost (by rw [hgen]; rfl)
    · rw [hw.apart k c g hk] at hd
      cases hd
  · rw [h.ledger]
    exact fits_of_subset hw.fits fun k d hd => ((install_detached w now conn).mp hd).1

theorem replaceOld_taken (now : Int) (u : World) {old c : ConnId} (hne : c ≠ old)
    (hbare : (u.conn c).clientShells = Dict.empty) :
    (u.replaceOld old c now).connections = u.connections ∧
    (u.replaceOld old c now).detachedShells = u.detachedShells ∧
    (u.replaceOld old c now).nextBinding = u.nextBinding ∧
    (∀ b, ((u.replaceOld old c now).binding b).completed = false → (u.binding b).completed = false ∧
      held (u.replaceOld old c now) b c = held u b old) ∧
    ∀ d, d ≠ c → d ≠ old → ((u.replaceOld old c now).conn d).clientShells = (u.conn d).clientShells := by
  have hlast : ∀ x : World, Stays x
      ((x.emit (.connectionRemoved old)).failPending old "CLIENT_REPLACED" "capability host was replaced") :=
    fun x => (Stays.emit x _).trans (Stays.of_inert (Inert.failPending _ old _ _))
  by_cases hg : (u.conn old).generation = (u.conn c).generation
  · have hv : u.replaceOld old c now = _ := congrArg (fun x : World =>
      (x.emit (.connectionRemoved old)).failPending old "CLIENT_REPLACED" "capability host was replaced") (if_pos hg)
    rw [hv]
    have h := hlast (u.handOver old c)
    refine ⟨h.connections, h.ledger, h.nextBinding, fun b hb => ⟨h.kept b hb, ?_⟩, fun d hd ho => ?_⟩
    · rw [held, h.shells]
      simp only [handOver, setConn, Function.update_of_ne hne, Function.update_self]
      rw [hbare, update_empty]
      rfl
    · rw [h.shells]
      simp [handOver, setConn, hd, ho]
  have hv : u.replaceOld old c now = _ := congrArg (fun x : World =>
    (x.emit (.connectionRemoved old)).failPending old "CLIENT_REPLACED" "capability host was replaced") (if_neg hg)
  rw [hv]
  have hc := orphanShellBindings_completes u (u.conn old).clientShells.values "CLIENT_REPLACED" now
  have h := hlast (u.orphanShellBindings (u.conn old).clientShells.values "CLIENT_REPLACED" now)
  have hall := (Stays.of_completes hc).trans h
  refine ⟨hall.connections, hall.ledger, hall.nextBinding, fun b hb => ⟨hall.kept b hb, ?_⟩, fun d _ _ => hall.shells d⟩
  rw [held, hall.shells, hbare, held, count_eq_zero.mpr (hc.not_mem (h.kept b hb))]
  rfl

theorem commitRegister_takes (hs : RegistrySound w) (hw : Custody w) :
    Takes w conn now (w.commitRegister conn now) := by
  have hc := orphanDetached_completes (w.install conn now) (w.displaced conn now) "CLIENT_REPLACED" now
  obtain ⟨u, hu⟩ : ∃ u, u = (w.install conn now).orphanDetached (w.displaced conn now) "CLIENT_REPLACED" now :=
    ⟨_, rfl⟩
  rw [← hu] at hc
  have hstay := Stays.of_completes hc
  have hnew : (u.conn w.nextConn).clientShells =
      ((w.restorable conn now).map DetachedClientShells.bindings).getD empty :=
    (hstay.shells _).trans (install_clientShells w now conn)
  have hsame : ∀ c, c ≠ w.nextConn → (u.conn c).clientShells = (w.conn c).clientShells := by
    intro c hne
    rw [hstay.shells]
    simp [install, hne]
  rw [commitRegister, ← hu]
  cases ho : w.connections.get? conn.key with
  | none =>
    refine ⟨hstay.connections, hstay.ledger, hstay.nextBinding, hstay.kept, fun c hne _ => hsame c hne,
      fun b hb => hc.not_mem hb, fun b hb => ?_⟩
    rw [ho, held, hnew]
    cases w.restorable conn now with
    | none => rfl
    | some d => rfl
  | some old =>
    -- a registered key has nothing in the ledger, so there is nothing to restore
    have hnone : w.restorable conn now = none := by
      have hapa : w.detachedShells.get? conn.clientHost = none := hw.apart _ old conn.generation ho
      rw [restorable, hapa, Option.filter_none]
    have hne : w.nextConn ≠ old := (hs.known _ _ ho).ne'
    rw [hnone] at hnew
    obtain ⟨hcon, hled, hnext, hkept, hoth⟩ := replaceOld_taken now u hne hnew
    refine ⟨hcon.trans hstay.connections, hled.trans hstay.ledger, hnext.trans hstay.nextBinding,
      fun b hb => hstay.kept b (hkept b hb).1, fun c hc hold => ?_, fun b hb => hc.not_mem (hkept b hb).1,
      fun b hb => ?_⟩
    · refine (hoth c hc fun h => hold ?_).trans (hsame c hc)
      rw [h]
      exact ho
    · rw [(hkept b hb).2, hnone, ho, held, hsame old hne.symm]
      simp [held]

theorem commitRegister_custody (hs : RegistrySound w) (hw : Custody w) :
    Custody (w.commitRegister conn now) := (commitRegister_takes hs hw).custody hs hw

end Registering

/-- A step of which no binding is lost: a sweep is whole, and a shell is recorded only on a connection
that is still registered. -/
def KeepsShells [Sha256] (w : World) (e : Int × Event) : Prop :=
  (∀ n checkedAt maxIdle, e.2 = .reapStale n checkedAt maxIdle → SweepsWhole w checkedAt maxIdle) ∧
  ∀ c frame ref value shell, e.2 = .resolveResult c frame → w.accepts c frame ref value (some shell) → w.registered c

inductive Container
  | connection (c : ConnId)
  | detached (host : HostKey)

def World.holds (w : World) (b : BindingId) : Container → Prop
  | .connection c => w.registered c ∧ b ∈ (w.conn c).clientShells.values
  | .detached host => ∃ d, w.detachedShells.get? host = some d ∧ b ∈ d.bindings.values

theorem start_custody (jobs recorder : Bool) : Custody (start jobs recorder) where
  slots := fun _ _ => rfl
  apart := fun _ _ _ h => nomatch h
  fits := rfl

theorem Records.custody {w v : World} {c : ConnId} {shellId : String} {shell : ClientShellBinding}
    (h : Records w c shellId shell v) (hr : w.registered c) (hs : RegistrySound w) (hsh : ShellsSound w)
    (hw : Custody w) : Custody v := by
  refine (Stays.of_inert h.inert).custody ⟨fun b hb => ?_, hw.apart, hw.fits⟩
  have hoth : (w.connections.erase (w.conn c).key).sumBy (fun _ d => held (w.recordShell c shellId shell) b d) =
      (w.connections.erase (w.conn c).key).sumBy (fun _ d => held w b d) := by
    refine held_congr b fun k d hd => ?_
    have hne := erased_ne hs hd
    simp [recordShell, setConn, emit, hne]
  have hsum : ∀ x : World, w.connections.sumBy (fun _ d => held x b d) =
      held x b c + (w.connections.erase (w.conn c).key).sumBy (fun _ d => held x b d) :=
    fun x => sumBy_erase w.connections _ hr
  have hnew : held (w.recordShell c shellId shell) b c = held w b c + if b = w.nextBinding then 1 else 0 := by
    rw [held]
    simp only [recordShell, setConn, emit, Function.update_self]
    rw [values_set_of_none _ h.unused, count_append, count_singleton, held]
    simp only [beq_iff_eq, @eq_comm _ b]
  have hslo : slots (w.recordShell c shellId shell) b = slots w b + if b = w.nextBinding then 1 else 0 := by
    change w.connections.sumBy (fun _ d => held (w.recordShell c shellId shell) b d) +
        w.detachedShells.sumBy (fun _ d => stored b d) = _
    rw [slots, hsum, hsum, hoth, hnew]
    omega
  have hold : (w.binding b).completed = false := by
    by_cases hn : b = w.nextBinding
    · by_contra hdone
      exact Nat.lt_irrefl _ (hn ▸ hsh.born b (Bool.eq_true_of_not_eq_false hdone))
    · simpa [recordShell, setConn, emit, hn] using hb
  rw [hslo, hw.slots b hold]
  change _ = if b < w.nextBinding + 1 then 1 else 0
  rcases Nat.lt_trichotomy b w.nextBinding with hlt | heq | hgt
  · rw [if_pos hlt, if_neg hlt.ne, if_pos (Nat.lt_succ_of_lt hlt)]
  · rw [if_neg (Nat.not_lt.mpr heq.ge), if_pos heq, if_pos (Nat.lt_succ_of_le heq.le)]
  · rw [if_neg (Nat.not_lt.mpr hgt.le), if_neg hgt.ne', if_neg (Nat.not_lt.mpr hgt)]

section Runs

variable [Sha256]

theorem step_custody {w v : World} {e : Int × Event} (hs : RegistrySound w) (hsh : ShellsSound w)
    (hw : Custody w) (hC : KeepsShells w e) (h : step w e = some v) : Custody v := by
  obtain ⟨now, e⟩ := e
  cases stepped h with
  | refused => exact hw
  | registered => exact commitRegister_custody hs hw
  | @closed device reason epoch => exact closeDevice_custody now hw device reason epoch
  | @called id request => exact (Stays.of_inert (callTool_inert w id request now)).custody hw
  | @resumed id what t _ _ h => exact (Stays.of_inert (resume_inert w id t now what h)).custody hw
  | @updated c generation servers => exact (Stays.of_inert (updateCatalog_inert w c generation servers)).custody hw
  | @unregistered c code message => exact unregister_custody now hs hw code message
  | @reaped n checkedAt maxIdle =>
    exact (setSweep_stays _ n _).custody (reapStale_custody now hs hw (hC.1 n checkedAt maxIdle rfl))
  | @closedAll n => exact (setSweep_stays _ n _).custody (closeRest_custody now _ hs hw)
  | @resumedSweep n s => exact (setSweep_stays _ n _).custody (resumeSweep_custody now s hs hw)
  | @cancelledSweep n => exact (setSweep_stays w n none).custody hw
  | @socketClosed c | @beat c =>
    exact (Stays.of_inert (Inert.setConn w c (fun _ => by rfl) (fun _ => by rfl))).custody hw
  | @resolved c frame hc =>
    rcases resolveResult_inert w c now frame with hin | ⟨ref, value, shell, ha, hin⟩
    · exact (Stays.of_inert hin).custody hw
    obtain ⟨hu, hrun⟩ := judgeResult_some ha.2.2.2.2
    have hrec : Records w c shell.1 shell.2 _ := ⟨hc, hu, hrun, hin⟩
    exact hrec.custody (hC.2 c frame ref value shell rfl ha) hs hsh hw
  | @told c frame =>
    rcases receiveToolEvent_cases w c now frame with hsame | ⟨b, u, _, _, hu, hv⟩
    · rw [hsame]
      exact hw
    rw [hv]
    exact ((Stays.of_completes hu).trans
      (Stays.of_inert (Inert.setConn u c (fun _ => by rfl) (fun _ => by rfl)))).custody hw
  | @received c frame => exact (Stays.of_inert (receiveChunk_inert w c frame)).custody hw

omit [Sha256] in
theorem mem_of_count {l : List BindingId} {b : BindingId} (h : 1 ≤ l.count b) : b ∈ l :=
  count_pos_iff.mp h

omit [Sha256] in
theorem count_ne_zero {l : List BindingId} {b : BindingId} (h : b ∈ l) : l.count b ≠ 0 :=
  (count_pos_iff.mpr h).ne'

omit [Sha256] in
theorem slots_ne_zero_of_holds {w : World} {b : BindingId} {p : Container} (h : w.holds b p) : slots w b ≠ 0 := by
  intro hz
  rw [slots, Nat.add_eq_zero_iff, sumBy_eq_zero_iff, sumBy_eq_zero_iff] at hz
  cases p with
  | connection c => exact count_ne_zero h.2 (hz.1 _ c h.1)
  | detached host =>
    obtain ⟨d, hd, hb⟩ := h
    exact count_ne_zero hb (hz.2 host d hd)

omit [Sha256] in
theorem holds_of_slots {w : World} (hs : RegistrySound w) {b : BindingId} (h : slots w b = 1) : ∃! p, w.holds b p := by
  rcases Nat.add_eq_one_iff.mp h with ⟨hheld, hsto⟩ | ⟨hheld, hsto⟩
  · obtain ⟨host, d, hd, hone, honly⟩ := existsUnique_of_sumBy_eq_one _ _ hsto
    rw [sumBy_eq_zero_iff] at hheld
    refine ⟨.detached host, ⟨d, hd, mem_of_count hone.symm.le⟩, fun p hp => ?_⟩
    cases p with
    | connection c => exact absurd (hheld _ c hp.1) (count_ne_zero hp.2)
    | detached k =>
      obtain ⟨e, he, hb⟩ := hp
      rw [honly k e he (count_ne_zero hb)]
  obtain ⟨k, c, hc, hone, honly⟩ := existsUnique_of_sumBy_eq_one _ _ hheld
  rw [sumBy_eq_zero_iff] at hsto
  refine ⟨.connection c, ⟨hs.registered hc, mem_of_count hone.symm.le⟩, fun p hp => ?_⟩
  cases p with
  | connection d =>
    have hk := honly _ d hp.1 (count_ne_zero hp.2)
    have hr : w.connections.get? (w.conn d).key = some d := hp.1
    rw [hk, hc] at hr
    rw [Option.some.inj hr]
  | detached host =>
    obtain ⟨d, hd, hb⟩ := hp
    exact absurd (hsto host d hd) (count_ne_zero hb)

/-- In a run whose steps keep their shells, every recorded shell is completed at most once, and while it
is not completed, exactly one registered connection or one entry of the ledger holds it. -/
theorem shells_in_one_place (w : World) (hw : ReachableUnder KeepsShells w) (b : BindingId) (c : ConnId)
    (hrec : .shellRecorded b c ∈ w.trace) :
    completions w.trace b = (w.binding b).completed.toNat ∧ ((w.binding b).completed = false → ∃! p, w.holds b p) := by
  obtain ⟨jobs, recorder, hr⟩ := hw
  have hI : RegistrySound w ∧ ShellsSound w ∧ Custody w := by
    refine Runs.invariant_under (I := fun w => RegistrySound w ∧ ShellsSound w ∧ Custody w) ?_ ?_ hr
    · intro s e t ⟨hs, hsh, hk⟩ hC he
      exact ⟨step_sound hs he, step_shellsSound hsh he, step_custody hs hsh hk hC he⟩
    · exact ⟨start_sound jobs recorder, start_shellsSound jobs recorder, start_custody jobs recorder⟩
  obtain ⟨hs, hsh, hk⟩ := hI
  refine ⟨hsh.counted b, fun hb => holds_of_slots hs ?_⟩
  rw [hk.slots b hb, if_pos (hsh.recorded b c hrec).1]

end Runs

def runningShell (w : World) : Bool :=
  w.trace.any (fun | .shellRecorded 0 0 => true
                   | _ => false) && !(w.binding 0).completed

theorem runningShell_holds {w : World} (h : runningShell w = true) :
    .shellRecorded 0 0 ∈ w.trace ∧ (w.binding 0).completed = false := by
  simp only [runningShell, Bool.and_eq_true, Bool.not_eq_true', any_eq_true] at h
  obtain ⟨⟨e, he, hrec⟩, hc⟩ := h
  split at hrec
  · exact ⟨he, hc⟩
  · cases hrec

/-- A sweep is cancelled while it closes the socket of one stale connection: it has already taken the
shell of another, long disconnected host out of the ledger. -/
def sweepCancelled : List (Int × Event) :=
  [(0, .register (shellHello 0)), (10, .callTool "call" startShell), (20, .resolveResult 0 shellStarted),
    (30, .unregister 0 "CLIENT_OFFLINE" "client capability host disconnected"),
    (40, .register { shellHello 0 with clientInstanceId := "other" }),
    (400000, .reapStale 0 400000 90000), (400010, .cancelSweep 0)]

theorem shell_lost_in_sweep : ¬ ∀ w, @Reachable shellDigest w → ∀ b c, .shellRecorded b c ∈ w.trace →
    (w.binding b).completed = false → ∃! p, w.holds b p := by
  intro h
  have hrun : (Runs.run (@step shellDigest) (start true false) sweepCancelled).any
      (fun w => runningShell w && decide (slots w 0 = 0)) = true := by decide +kernel
  obtain ⟨w, hw, hlost⟩ := (Option.any_eq_true _ _).mp hrun
  rw [Bool.and_eq_true, decide_eq_true_eq] at hlost
  obtain ⟨hrec, hc⟩ := runningShell_holds hlost.1
  obtain ⟨p, hp, _⟩ := h w ⟨true, false, sweepCancelled, hw⟩ 0 0 hrec hc
  exact slots_ne_zero_of_holds hp hlost.2

def sweepDetaches : List (Int × Event) :=
  [(0, .register (shellHello 0)), (10, .callTool "call" startShell), (20, .resolveResult 0 shellStarted),
    (200000, .reapStale 0 200000 90000)]

def keepsShells (w : World) (e : Int × Event) : Bool :=
  match e.2 with
  | .reapStale _ checkedAt maxIdle =>
    (w.staleConnections checkedAt maxIdle).any (fun c => (w.conn c).clientShells.size != 0)
  | .resolveResult c _ => decide (w.registered c)
  | _ => true

theorem keepsShells_holds [Sha256] {w : World} {e : Int × Event} (h : keepsShells w e = true) : KeepsShells w e := by
  rw [keepsShells] at h
  constructor
  · intro n checkedAt maxIdle he _
    rw [he] at h
    obtain ⟨c, hc, hz⟩ := any_eq_true.mp h
    exact .inl ⟨c, hc, bne_iff_ne.mp hz⟩
  intro c frame ref value shell he _
  rw [he] at h
  exact of_decide_eq_true h

theorem shells_in_one_place_swept : ∃ w : World, (∃! p, w.holds 0 p) ∧ w.connections.size = 0 := by
  have hrun : (Runs.run (@step shellDigest) (start true false) sweepDetaches).any
      (fun w => runningShell w && decide (w.connections.size = 0)) = true := by decide +kernel
  have hall : Runs.all keepsShells (@step shellDigest) (start true false) sweepDetaches = true := by
    decide +kernel
  obtain ⟨w, hw, hrunn⟩ := (Option.any_eq_true _ _).mp hrun
  rw [Bool.and_eq_true, decide_eq_true_eq] at hrunn
  obtain ⟨hrec, hc⟩ := runningShell_holds hrunn.1
  have hrea : @ReachableUnder shellDigest (@KeepsShells shellDigest) w :=
    ⟨true, false, sweepDetaches, Runs.meets_of_all (fun _ _ => @keepsShells_holds shellDigest _ _) hall, hw⟩
  exact ⟨w, (@shells_in_one_place shellDigest w hrea 0 0 hrec).2 hc, hrunn.2⟩

section Completions

variable [Sha256] {w : World}

end Completions

def shellExits : List (Int × Event) :=
  [(0, .register (shellHello 0)), (10, .callTool "call" startShell), (20, .resolveResult 0 shellStarted),
    (30, .receiveToolEvent 0 { generation := 1, type := "shell_completed", shellId := "shell-1" })]

end OpenAgent.Gateway.Capabilities
