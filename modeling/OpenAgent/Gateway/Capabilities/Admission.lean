import OpenAgent.Gateway.Capabilities.Removal

namespace OpenAgent.Gateway.Capabilities

open Py World Dict

structure Accepts (w : World) (conn : CapabilityConnection) : Prop where
  epoch : w.blockEpoch conn.deviceId ≤ conn.authEpoch
  floor : w.floor conn.key ≤ conn.generation
  size : w.connections.get? conn.key = none → w.connections.size < maxActiveCapabilityConnections
  perDevice : w.connections.get? conn.key = none →
    devicesOf w.connections conn.deviceId < maxActiveCapabilityConnectionsPerDevice

variable {h : Hello} {conn : CapabilityConnection}

theorem connection_authEpoch (hc : h.connection = .ok conn) :
    conn.authEpoch = h.authEpoch.getD (-1) := by
  simp only [Hello.connection] at hc
  split at hc
  · cases hc
  split at hc
  · cases hc
  split at hc
  · cases hc
  split at hc
  · cases hc
  split at hc
  · cases hc
  · cases hc
    rfl

variable {w : World}

theorem accept_authEpoch (ha : w.accept h = .ok conn) : conn.authEpoch = h.authEpoch.getD (-1) := by
  unfold accept at ha
  split at ha
  · cases ha
  rename_i hconn
  split at ha
  · cases ha
  · cases ha
    exact connection_authEpoch hconn

theorem accept_accepts (ha : w.accept h = .ok conn) : Accepts w conn := by
  unfold accept at ha
  split at ha
  · cases ha
  rename_i conn' _
  split at ha
  · cases ha
  rename_i hr
  cases ha
  unfold refusal at hr
  split_ifs at hr with hepo _ _ hsize hdev hflo
  push Not at hepo hsize hdev hflo
  exact ⟨hepo.2, hflo, hsize, hdev⟩

theorem devicesOf_set (d : Dict Key ConnId) (k : Key) (c : ConnId) (device : String) :
    devicesOf (d.set k c) device ≤ devicesOf d device + if d.get? k = none ∧ k.1 = device then 1 else 0 := by
  unfold devicesOf
  rw [sumBy_set]
  cases h : d.get? k with
  | none =>
    rw [erase_of_get?_none d h]
    simp only [true_and]
    omega
  | some b =>
    rw [sumBy_erase d _ h]
    simp

theorem size_set (d : Dict Key ConnId) (k : Key) (c : ConnId) :
    (d.set k c).size ≤ d.size + if d.get? k = none then 1 else 0 := by
  rw [size_eq_sumBy, size_eq_sumBy, sumBy_set]
  cases h : d.get? k with
  | none =>
    rw [erase_of_get?_none d h]
    simp only [if_true]
    omega
  | some b =>
    rw [sumBy_erase d _ h]
    simp

/-- Who is registered, and what the floors and the revocation epochs say about them. -/
structure RegistrySound (w : World) : Prop where
  size : w.connections.size ≤ maxActiveCapabilityConnections
  perDevice : ∀ d, devicesOf w.connections d ≤ maxActiveCapabilityConnectionsPerDevice
  known : ∀ k c, w.connections.get? k = some c → c < w.nextConn
  keyed : ∀ k c, w.connections.get? k = some c → (w.conn c).key = k
  floor : ∀ k c, w.connections.get? k = some c → w.generationFloor.get? k = some (w.conn c).generation
  epoch : ∀ k c, w.connections.get? k = some c → w.blockEpoch k.1 ≤ (w.conn c).authEpoch

/-- Every connection object is registered, or its removal is on record and final. -/
structure Accounted (w : World) : Prop where
  kept : ∀ c, c < w.nextConn → w.registered c ∨ .connectionRemoved c ∈ w.trace
  departed : ∀ c, .connectionRemoved c ∈ w.trace → c < w.nextConn ∧ ¬ w.registered c

theorem start_sound (jobs recorder : Bool) : RegistrySound (start jobs recorder) where
  size := Nat.zero_le _
  perDevice := fun _ => Nat.zero_le _
  known := fun _ _ h => nomatch h
  keyed := fun _ _ h => nomatch h
  floor := fun _ _ h => nomatch h
  epoch := fun _ _ h => nomatch h

theorem start_accounted (jobs recorder : Bool) : Accounted (start jobs recorder) where
  kept := fun _ h => absurd h (Nat.not_lt_zero _)
  departed := fun _ h => nomatch h

theorem RegistrySound.registered (hw : RegistrySound w) {k : Key} {c : ConnId}
    (hc : w.connections.get? k = some c) : w.registered c := by
  unfold World.registered
  rw [hw.keyed k c hc]
  exact hc

variable {v : World}

theorem Shrinks.sound (h : Shrinks w v) (hw : RegistrySound w) : RegistrySound v where
  size := (size_le_of_subset h.connections).trans hw.size
  perDevice := fun d => (sumBy_le_of_subset h.connections _).trans (hw.perDevice d)
  known := fun k c hc => h.nextConn ▸ hw.known k c (h.connections k c hc)
  keyed := fun k c hc => (identity_key (h.identity c)).trans (hw.keyed k c (h.connections k c hc))
  floor := by
    intro k c hc
    rw [h.floors, identity_generation (h.identity c)]
    exact hw.floor k c (h.connections k c hc)
  epoch := by
    intro k c hc
    rw [h.blockEpoch, identity_authEpoch (h.identity c)]
    exact hw.epoch k c (h.connections k c hc)

theorem Shrinks.accounted (h : Shrinks w v)
    (hk : ∀ k c, w.connections.get? k = some c → c < w.nextConn) (hw : Accounted w) : Accounted v where
  kept := by
    intro c hc
    rw [h.nextConn] at hc
    rcases hw.kept c hc with hr | hr
    · unfold World.registered
      rw [identity_key (h.identity c)]
      exact h.removed _ c hr
    · exact .inr (h.history.subset hr)
  departed := by
    intro c hc
    rw [h.nextConn]
    rcases h.departed c hc with hr | ⟨hr, hn⟩
    · obtain ⟨hlt, hn⟩ := hw.departed c hr
      exact ⟨hlt, fun hv => hn (h.registered hv)⟩
    refine ⟨?_, hn⟩
    rcases hr with hr | hr
    · exact hk _ _ hr
    · exact hr

section Registration

variable (w : World) (conn : CapabilityConnection) (now : Int)

theorem handOver_removes (old c : ConnId) : Removes w (w.handOver old c) := by
  unfold handOver
  exact (Removes.setConn w c (fun _ => by rfl)).trans (Removes.setConn _ old (fun _ => by rfl))

variable {old : ConnId}

theorem emit_removed (hlt : old < w.nextConn) (hr : ¬ w.registered old) :
    Removes w (w.emit (.connectionRemoved old)) := by
  refine Removes.of_shrinks ?_ rfl rfl (rfl : _ = w.trace ++ [.connectionRemoved old]) (by simp [Effect.isDispatch])
  refine ⟨fun _ _ h => h, rfl, rfl, rfl, fun _ => rfl, fun _ _ h => .inl h, fun d h => ?_, ⟨_, rfl⟩⟩
  simp only [emit, List.mem_append, List.mem_singleton, Effect.connectionRemoved.injEq] at h
  rcases h with h | rfl
  · exact .inl h
  · exact .inr ⟨.inr hlt, hr⟩

theorem replaceOld_removes {old c : ConnId} (hlt : old < w.nextConn) (hr : ¬ w.registered old) :
    Removes w (w.replaceOld old c now) := by
  have hin : Removes w (if (w.conn old).generation = (w.conn c).generation then w.handOver old c
      else w.orphanShellBindings (w.conn old).clientShells.values "CLIENT_REPLACED" now) := by
    split
    · exact handOver_removes w old c
    · exact orphanShellBindings_removes w now _ _
  refine (hin.trans (emit_removed _ ?_ ?_)).trans (failPending_removes _ old _ _)
  · rw [hin.nextConn]
    exact hlt
  · exact fun h => hr (hin.registered h)

theorem replaceOld_removed (old c : ConnId) : .connectionRemoved old ∈ (w.replaceOld old c now).trace := by
  unfold replaceOld
  exact (failPending_removes _ old _ _).history.subset (by simp [emit])

theorem install_get? (k : Key) : (w.install conn now).connections.get? k =
    if k = conn.key then some w.nextConn else w.connections.get? k := get?_set _ _ _ _

theorem install_conn (c : ConnId) : ((w.install conn now).conn c).identity =
    if c = w.nextConn then conn.identity else (w.conn c).identity := by
  by_cases hc : c = w.nextConn
  · subst hc
    simp only [install, Function.update_self, if_true]
    rfl
  · simp [install, hc]

theorem install_floor (k : Key) : (w.install conn now).generationFloor.get? k =
    if k = conn.key then some (max (w.floor conn.key) conn.generation) else w.generationFloor.get? k :=
  get?_set _ _ _ _

variable {w conn}

theorem install_sound (hw : RegistrySound w) (ha : Accepts w conn) : RegistrySound (w.install conn now) where
  size := by
    have hs := size_set w.connections conn.key w.nextConn
    have hq := ha.size
    have hl := hw.size
    change (w.connections.set conn.key w.nextConn).size ≤ _
    split at hs
    · rename_i hn
      have := hq hn
      omega
    · omega
  perDevice := by
    intro d
    have hs := devicesOf_set w.connections conn.key w.nextConn d
    have hl := hw.perDevice d
    change devicesOf (w.connections.set conn.key w.nextConn) d ≤ _
    split at hs
    · rename_i hn
      obtain ⟨hn, rfl⟩ := hn
      have hq : devicesOf w.connections conn.key.1 < _ := ha.perDevice hn
      omega
    · omega
  known := by
    intro k c hc
    rw [install_get?] at hc
    split at hc
    · cases hc
      exact Nat.lt_succ_self _
    · exact Nat.lt_succ_of_lt (hw.known k c hc)
  keyed := by
    intro k c hc
    rw [install_get?] at hc
    have hi := install_conn w conn now c
    split at hc
    · rename_i hk
      cases hc
      rw [if_pos rfl] at hi
      exact (identity_key hi).trans hk.symm
    have hlt := hw.known k c hc
    rw [if_neg hlt.ne] at hi
    exact (identity_key hi).trans (hw.keyed k c hc)
  floor := by
    intro k c hc
    rw [install_get?] at hc
    have hi := install_conn w conn now c
    rw [install_floor]
    split at hc
    · rename_i hk
      cases hc
      rw [if_pos rfl] at hi
      rw [if_pos hk, identity_generation hi, max_eq_right ha.floor]
    rename_i hk
    have hlt := hw.known k c hc
    rw [if_neg hlt.ne] at hi
    rw [if_neg hk, identity_generation hi]
    exact hw.floor k c hc
  epoch := by
    intro k c hc
    rw [install_get?] at hc
    have hi := install_conn w conn now c
    split at hc
    · rename_i hk
      cases hc
      rw [if_pos rfl] at hi
      rw [identity_authEpoch hi, hk]
      exact ha.epoch
    have hlt := hw.known k c hc
    rw [if_neg hlt.ne] at hi
    rw [identity_authEpoch hi]
    exact hw.epoch k c hc

theorem install_not_registered (hw : RegistrySound w)
    (h : w.connections.get? conn.key = some old) : ¬ (w.install conn now).registered old := by
  have hlt := hw.known _ _ h
  have hi := install_conn w conn now old
  rw [if_neg hlt.ne] at hi
  unfold registered
  rw [identity_key hi, hw.keyed _ _ h, install_get?, if_pos rfl]
  exact fun he => hlt.ne (Option.some.inj he).symm

theorem commitRegister_removes (hw : RegistrySound w) : Removes (w.install conn now) (w.commitRegister conn now) := by
  unfold commitRegister
  have hd := orphanDetached_removes (w.install conn now) now (w.displaced conn now) "CLIENT_REPLACED"
  cases ho : w.connections.get? conn.key with
  | none => exact hd
  | some old =>
    refine hd.trans (replaceOld_removes _ now ?_ fun h => ?_)
    · rw [hd.nextConn]
      exact Nat.lt_succ_of_lt (hw.known _ _ ho)
    · exact install_not_registered now hw ho (hd.registered h)

theorem commitRegister_sound (hw : RegistrySound w) (ha : Accepts w conn) : RegistrySound (w.commitRegister conn now) :=
  (commitRegister_removes now hw).toShrinks.sound (install_sound now hw ha)

theorem commitRegister_removed (h : w.connections.get? conn.key = some old) :
    .connectionRemoved old ∈ (w.commitRegister conn now).trace := by
  unfold commitRegister
  rw [h]
  exact replaceOld_removed _ now old w.nextConn

theorem install_registered (c : ConnId) (h : (w.install conn now).registered c) : c = w.nextConn ∨ w.registered c := by
  by_cases hn : c = w.nextConn
  · exact .inl hn
  have hi := install_conn w conn now c
  rw [if_neg hn] at hi
  unfold registered at h ⊢
  rw [identity_key hi, install_get?] at h
  split at h
  · exact .inl (Option.some.inj h).symm
  · exact .inr h

theorem commitRegister_accounted (hs : RegistrySound w) (hw : Accounted w) : Accounted (w.commitRegister conn now) where
  kept := by
    have h : Removes (w.install conn now) _ := commitRegister_removes now hs
    intro c hc
    rw [h.nextConn] at hc
    have hi := (h.identity c).trans (install_conn w conn now c)
    by_cases hn : c = w.nextConn
    · rw [if_pos hn] at hi
      unfold registered
      rw [identity_key hi]
      apply h.removed
      rw [install_get?, if_pos rfl, hn]
    rw [if_neg hn] at hi
    rcases hw.kept c (Nat.lt_of_le_of_ne (Nat.lt_succ_iff.mp hc) hn) with hr | hr
    · by_cases hk : (w.conn c).key = conn.key
      · unfold registered at hr
        rw [hk] at hr
        exact .inr (commitRegister_removed now hr)
      · unfold registered
        rw [identity_key hi]
        apply h.removed
        rw [install_get?, if_neg hk]
        exact hr
    · exact .inr (h.history.subset hr)
  departed := by
    have h : Removes (w.install conn now) _ := commitRegister_removes now hs
    intro c hc
    rcases h.departed c hc with hr | ⟨hr, hn⟩
    · obtain ⟨hlt, hn⟩ := hw.departed c hr
      rw [h.nextConn]
      refine ⟨Nat.lt_succ_of_lt hlt, fun hv => ?_⟩
      rcases install_registered now c (h.registered hv) with rfl | hw'
      · exact hlt.ne rfl
      · exact hn hw'
    rw [h.nextConn]
    refine ⟨?_, hn⟩
    rcases hr with hr | hr
    · rcases install_registered now c hr with rfl | hw'
      · exact Nat.lt_succ_self _
      · exact Nat.lt_succ_of_lt (hs.known _ _ hw')
    · exact hr

end Registration

section Revocation

variable (w : World) (deviceId reason : String) (revocationEpoch : Option Int) (now : Int)

def World.blocked : World :=
  { w with
    deviceBlockEpoch := w.deviceBlockEpoch.set deviceId
      (max (w.blockEpoch deviceId) (w.revokedBelow deviceId revocationEpoch))
    detachedShells := w.detachedShells.filter (fun k _ => k.1 != deviceId) }

theorem revokeConnection_removes (c : ConnId) : Removes w (World.revokeConnection reason now w c) :=
  (failPending_removes w c _ _).trans (orphanShellBindings_removes _ now _ _)

theorem closeDevice_locked : Removes ((w.revokedConnections deviceId (w.revokedBelow deviceId revocationEpoch)).foldl
      World.removeConnection (w.blocked deviceId revocationEpoch))
    (w.closeDevice deviceId reason revocationEpoch now) :=
  (Removes.foldl (fun w c => revokeConnection_removes w reason now c) _ _).trans
    (orphanDetached_removes _ now _ _)

theorem closeDevice_removes : Removes (w.blocked deviceId revocationEpoch)
    (w.closeDevice deviceId reason revocationEpoch now) :=
  (Removes.foldl removeConnection_removes _ _).trans (closeDevice_locked w deviceId reason revocationEpoch now)

theorem blocked_blockEpoch (d : String) : (w.blocked deviceId revocationEpoch).blockEpoch d =
    if d = deviceId then max (w.blockEpoch deviceId) (w.revokedBelow deviceId revocationEpoch)
    else w.blockEpoch d := by
  rw [blockEpoch]
  simp only [blocked, get?_set]
  split
  · rfl
  · rfl

variable {w}

theorem closeDevice_sound (hw : RegistrySound w) :
    RegistrySound (w.closeDevice deviceId reason revocationEpoch now) := by
  have h := closeDevice_removes w deviceId reason revocationEpoch now
  have hsub : ∀ k c, (w.closeDevice deviceId reason revocationEpoch now).connections.get? k = some c →
      w.connections.get? k = some c := h.connections
  refine ⟨(size_le_of_subset hsub).trans hw.size,
    fun d => (sumBy_le_of_subset hsub _).trans (hw.perDevice d), ?_, ?_, ?_, ?_⟩
  · intro k c hc
    rw [h.nextConn]
    exact hw.known k c (hsub k c hc)
  · intro k c hc
    exact (identity_key (h.identity c)).trans (hw.keyed k c (hsub k c hc))
  · intro k c hc
    rw [h.floors, identity_generation (h.identity c)]
    exact hw.floor k c (hsub k c hc)
  · intro k c hc
    rw [h.blockEpoch, identity_authEpoch (h.identity c), blocked_blockEpoch]
    have hk := hw.epoch k c (hsub k c hc)
    split
    · rename_i hd
      subst hd
      refine max_le hk ?_
      by_contra hlt
      have hmem : c ∈ w.revokedConnections k.1 (w.revokedBelow k.1 revocationEpoch) := by
        refine List.mem_map.mpr ⟨(k, c), List.mem_filter.mpr ⟨(get?_eq_some_iff _ _ _).mp (hsub k c hc), ?_⟩, rfl⟩
        simp only [decide_true, Bool.true_and, decide_eq_true_eq]
        exact not_le.mp hlt
      have hl := closeDevice_locked w k.1 reason revocationEpoch now
      apply foldl_removeConnection_not_registered _ c hmem
      apply hl.registered
      unfold registered
      rw [identity_key (h.identity c)]
      have hkey : ((w.blocked k.1 revocationEpoch).conn c).key = k := hw.keyed k c (hsub k c hc)
      rw [hkey]
      exact hc
    · exact hk

theorem closeDevice_accounted (hs : RegistrySound w) (hw : Accounted w) :
    Accounted (w.closeDevice deviceId reason revocationEpoch now) :=
  (closeDevice_removes w deviceId reason revocationEpoch now).toShrinks.accounted hs.known ⟨hw.kept, hw.departed⟩

end Revocation

def RegistryGrows (w v : World) : Prop :=
  @Dict.Grows _ _ _ Int.instLinearOrder.toPreorder w.generationFloor v.generationFloor ∧
    @Dict.Grows _ _ _ Int.instLinearOrder.toPreorder w.deviceBlockEpoch v.deviceBlockEpoch

theorem Shrinks.grows (h : Shrinks w v) : RegistryGrows w v := by
  unfold RegistryGrows
  rw [h.floors, h.blocks]
  exact ⟨Grows.refl _, Grows.refl _⟩

section Runs

variable [Sha256]

variable {e : Int × Event}

theorem step_registry (h : step w e = some v) :
    (∃ conn, Accepts w conn ∧ v = w.commitRegister conn e.1) ∨
    (∃ device reason epoch, v = w.closeDevice device reason epoch e.1) ∨ Shrinks w v := by
  rcases step_cases h with ⟨_, conn, _, ha, hv⟩ | ⟨device, reason, epoch, _, hv⟩ | ⟨_, _, _, hm⟩ |
    ⟨_, _, _, _, hm⟩ | ⟨id, t, _, _, _, hv⟩ | hr
  · exact .inl ⟨conn, accept_accepts ha, hv⟩
  · exact .inr (.inl ⟨device, reason, epoch, hv⟩)
  · exact .inr (.inr (Shrinks.of_inert hm.inert))
  · exact .inr (.inr (Shrinks.of_inert hm.inert))
  · exact .inr (.inr (hv ▸ Shrinks.of_inert (sendCall_inert w id t)))
  · exact .inr (.inr hr.toShrinks)

theorem step_sound (hw : RegistrySound w) (h : step w e = some v) : RegistrySound v := by
  rcases step_registry h with ⟨conn, ha, rfl⟩ | ⟨device, reason, epoch, rfl⟩ | h
  · exact commitRegister_sound e.1 hw ha
  · exact closeDevice_sound device reason epoch e.1 hw
  · exact h.sound hw

theorem step_accounted (hs : RegistrySound w) (hw : Accounted w)
    (h : step w e = some v) : Accounted v := by
  rcases step_registry h with ⟨conn, _, rfl⟩ | ⟨device, reason, epoch, rfl⟩ | h
  · exact commitRegister_accounted e.1 hs hw
  · exact closeDevice_accounted device reason epoch e.1 hs hw
  · exact h.accounted hs.known hw

theorem reachable_sound (h : Reachable w) : RegistrySound w ∧ Accounted w := by
  obtain ⟨jobs, recorder, h⟩ := h
  exact Runs.invariant (I := fun w => RegistrySound w ∧ Accounted w)
    (fun _ _ _ hI he => ⟨step_sound hI.1 he, step_accounted hI.1 hI.2 he⟩)
    ⟨start_sound jobs recorder, start_accounted jobs recorder⟩ h

theorem step_grows (hs : RegistrySound w) (h : step w e = some v) : RegistryGrows w v := by
  rcases step_registry h with ⟨conn, _, rfl⟩ | ⟨device, reason, epoch, rfl⟩ | h
  · have hr : Removes (w.install conn e.1) _ := commitRegister_removes e.1 hs
    obtain ⟨hf, hb⟩ := hr.toShrinks.grows
    exact ⟨(grows_set w.generationFloor conn.key conn.generation 0).trans hf, hb⟩
  · obtain ⟨hf, hb⟩ := (closeDevice_removes w device reason epoch e.1).toShrinks.grows
    exact ⟨hf, (grows_set w.deviceBlockEpoch device _ (-1)).trans hb⟩
  · exact h.grows

theorem reaches_grows (hs : RegistrySound w) (h : Runs.Reaches step w v) : RegistryGrows w v := by
  refine Runs.monotone (I := RegistrySound) (R := RegistryGrows) ?_ ?_ ?_ ?_ hs h
  · exact fun s => (Shrinks.refl s).grows
  · exact fun s t u h k => ⟨h.1.trans k.1, h.2.trans k.2⟩
  · exact fun s e t hI he => step_sound hI he
  · exact fun s e t hI he => step_grows hI he

/-- Whatever is registered respects the quotas, sits at its generation floor and above its revocation
epoch; floors and epochs never go back; a refused registration changes nothing. -/
theorem admission_invariant (w : World) (hw : Reachable w) :
    w.connections.size ≤ 128 ∧ (∀ device, devicesOf w.connections device ≤ 8) ∧
    (∀ k c, w.connections.get? k = some c → (w.conn c).key = k ∧ w.generationFloor.get? k = some (w.conn c).generation ∧
      w.blockEpoch (w.conn c).deviceId ≤ (w.conn c).authEpoch) ∧
    (∀ v, Runs.Reaches step w v →
      (∀ k n, w.generationFloor.get? k = some n → ∃ m, v.generationFloor.get? k = some m ∧ n ≤ m) ∧
      (∀ d n, w.deviceBlockEpoch.get? d = some n → ∃ m, v.deviceBlockEpoch.get? d = some m ∧ n ≤ m)) ∧
    (∀ hello now error, (w.register hello now).2 = .error error → (w.register hello now).1 = w) := by
  have hs := (reachable_sound hw).1
  refine ⟨hs.size, hs.perDevice, ?_, fun v hv => reaches_grows hs hv, ?_⟩
  · intro k c hc
    have hk := hs.keyed k c hc
    have hd : (w.conn c).deviceId = k.1 := congrArg Prod.fst hk
    exact ⟨hk, hs.floor k c hc, hd ▸ hs.epoch k c hc⟩
  intro hello now error h
  unfold register at h ⊢
  cases ha : w.accept hello with
  | error e => rfl
  | ok conn =>
    rw [ha] at h
    cases h

end Runs

theorem admission_invariant_laptop : let w := ((start true true).register (laptopHello 0) 0).1
    w.connections.get? ("device", "instance") = some 0 ∧
      w.generationFloor.get? ("device", "instance") = some (w.conn 0).generation ∧
      w.blockEpoch (w.conn 0).deviceId ≤ (w.conn 0).authEpoch := by
  intro w
  have hc : w.connections.get? ("device", "instance") = some 0 := by decide
  have h := @admission_invariant noDigest w ⟨true, true, [(0, .register (laptopHello 0))], rfl⟩
  exact ⟨hc, (h.2.2.1 _ _ hc).2⟩

section Lifetimes

variable [Sha256] {w v : World}

theorem step_history {e : Int × Event} (hs : RegistrySound w) (h : step w e = some v) : w.trace <+: v.trace := by
  rcases step_registry h with ⟨conn, _, rfl⟩ | ⟨device, reason, epoch, rfl⟩ | h
  · have hr : Removes (w.install conn e.1) _ := commitRegister_removes e.1 hs
    exact hr.history
  · exact (closeDevice_removes w device reason epoch e.1).history
  · exact h.history

theorem reaches_history (hs : RegistrySound w) (h : Runs.Reaches step w v) : w.trace <+: v.trace := by
  refine Runs.monotone (I := RegistrySound) (R := fun s t => s.trace <+: t.trace) ?_ ?_ ?_ ?_ hs h
  · exact fun s => List.prefix_rfl
  · exact fun s t u => List.IsPrefix.trans
  · exact fun s e t hI he => step_sound hI he
  · exact fun s e t hI he => step_history hI he

/-- A connection object is registered until its removal is on record, and never again afterwards. -/
theorem removed_for_good (hw : Reachable w) (c : ConnId) (hc : c < w.nextConn) :
    (w.registered c ↔ .connectionRemoved c ∉ w.trace) ∧
      (¬ w.registered c → ∀ v, Runs.Reaches step w v → ¬ v.registered c) := by
  obtain ⟨hs, ha⟩ := reachable_sound hw
  have hiff : w.registered c ↔ .connectionRemoved c ∉ w.trace :=
    ⟨fun hr hm => (ha.departed c hm).2 hr, fun hm => (ha.kept c hc).resolve_right hm⟩
  refine ⟨hiff, fun hn v hv => ?_⟩
  obtain ⟨jobs, recorder, hrun⟩ := hw
  have hlater : Reachable v := ⟨jobs, recorder, hrun.trans hv⟩
  have hmem : .connectionRemoved c ∈ v.trace := (reaches_history hs hv).subset (by_contra fun hm => hn (hiff.mpr hm))
  exact ((reachable_sound hlater).2.departed c hmem).2

end Lifetimes

def goesOffline : List (Int × Event) :=
  [(0, .register (shellHello 0)), (30, .unregister 0 "CLIENT_OFFLINE" "client capability host disconnected")]

theorem removed_for_good_offline : ∃ w, Runs.run (@step shellDigest) (start true false) goesOffline = some w ∧
    ∀ v, Runs.Reaches (@step shellDigest) w v → ¬ v.registered 0 := by
  have hrun : (Runs.run (@step shellDigest) (start true false) goesOffline).any
      (fun w => decide (0 < w.nextConn ∧ ¬ w.registered 0)) = true := by decide +kernel
  obtain ⟨w, hw, hout⟩ := (Option.any_eq_true _ _).mp hrun
  obtain ⟨hc, hn⟩ := of_decide_eq_true hout
  exact ⟨w, hw, (@removed_for_good shellDigest w ⟨true, false, _, hw⟩ 0 hc).2 hn⟩

end OpenAgent.Gateway.Capabilities
