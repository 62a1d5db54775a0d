import OpenAgent.Desktop.Loopbacks
import OpenAgent.Lib.Text
import Mathlib.Data.List.DropRight

namespace OpenAgent.Desktop.Loopbacks

open Py List Loopbacks Dict

def opening (vault : Dict String RememberedCredentialRecord) (available : Bool) (logins : List Login) : State :=
  { vault, available, logins }

structure Protected (s : State) : Prop where
  single : ∀ (l m : Nat) (lb mb : Loopback), s.loopbacks[l]? = some lb → s.loopbacks[m]? = some mb →
    lb.account = mb.account → lb.torn = false → mb.torn = false → l = m
  answered : ∀ r ∈ s.replies, r.claimed = true → r.torn = false
  unheld : ∀ b ∈ s.begun, b.all = true ∨ b.claimed = false

def Settled (s : State) (event : Event) : Prop :=
  match event with
  | .getPort _ account => ∀ loopback ∈ s.handles.get? account, isTorn s loopback = false
  | _ => True

/-- How handles, teardowns, flights and loopbacks belong together. -/
structure Tables (s : State) : Prop where
  running : ∀ (l : Nat) (lb : Loopback), s.loopbacks[l]? = some lb → lb.torn = false → s.handles.get? lb.account = some l
  handled : ∀ a l, s.handles.get? a = some l → ∃ lb : Loopback, s.loopbacks[l]? = some lb ∧ lb.account = a
  upright : ∀ a l, s.handles.get? a = some l → s.teardowns.get? a = none → isTorn s l = false
  hooking : ∀ a t l, s.teardowns.get? a = some t → s.handles.get? a = some l → isTorn s l = true
  stopping : ∀ a t, s.teardowns.get? a = some t → t.stage = .stopping → s.handles.get? a = none
  flying : ∀ a r, s.flights.get? a = some r → r.account = a ∧ s.handles.get? a = none ∧ s.teardowns.get? a = none

/-- Lifetimes of claims are never used again, and a start that reaps has lost its claim. -/
structure Lifetimes (s : State) : Prop where
  claims : ∀ k c, s.consumers.get? k = some c → c.lifetime < s.lifetimes
  requests : ∀ r ∈ s.requests, r.lifetime < s.lifetimes
  reaping : ∀ r ∈ s.requests, ∀ t l, r.stage = .reaping t l → lifetimeOf s r.account r.renderer ≠ some r.lifetime

structure Logs (s : State) : Prop where
  replies : ∀ r ∈ s.replies, r.claimed = true → r.torn = false
  begun : ∀ b ∈ s.begun, b.all = true ∨ b.claimed = false

structure Sound (s : State) : Prop where
  tables : Tables s
  lifetimes : Lifetimes s
  logs : Logs s

theorem isTorn_of_getElem? {s : State} {l : Nat} {lb : Loopback} (h : s.loopbacks[l]? = some lb) :
    isTorn s l = lb.torn := by
  rw [isTorn, h, Option.any_some]

theorem Tables.protects {s : State} (ht : Tables s) (hl : Logs s) : Protected s where
  single l m lb mb hlb hmb ha hl hm := by
    have h := (ht.running l lb hlb hl).symm.trans (ha ▸ ht.running m mb hmb hm)
    exact Option.some.inj h
  answered := hl.replies
  unheld := hl.begun

section Consumers

variable {s : State} {account : String} {renderer : Nat}

theorem hasConsumers_eq_true {key : String × Nat} {c : Claim} (h : s.consumers.get? key = some c)
    (ha : key.1 = account) : hasConsumers s account = true := by
  rw [hasConsumers, any_eq_true]
  exact ⟨key, (mem_keys_iff _ _).mpr ⟨c, h⟩, by simpa using ha⟩

theorem lifetimeOf_of_unclaimed (h : hasConsumers s account = false) : lifetimeOf s account renderer = none := by
  rw [lifetimeOf, Option.map_eq_none_iff]
  cases hc : s.consumers.get? (account, renderer) with
  | none => rfl
  | some c => cases (hasConsumers_eq_true hc rfl).symm.trans h

theorem hasConsumers_clearAccount : hasConsumers (clearAccount s account) account = false := by
  rw [hasConsumers, any_eq_false]
  intro key hkey
  obtain ⟨c, hc⟩ := (mem_keys_iff _ _).mp hkey
  rw [clearAccount, get?_filter, Option.filter_eq_some_iff] at hc
  simpa using hc.2

end Consumers

def Fewer (s t : State) : Prop :=
  ∀ key c, t.consumers.get? key = some c → ∃ d, s.consumers.get? key = some d ∧ d.lifetime = c.lifetime

variable {account : String}

theorem Fewer.lifetimeOf {s t : State} (h : Fewer s t) {renderer lifetime : Nat}
    (ht : lifetimeOf t account renderer = some lifetime) : lifetimeOf s account renderer = some lifetime := by
  obtain ⟨c, hc, hl⟩ := Option.map_eq_some_iff.mp ht
  obtain ⟨d, hd, he⟩ := h _ c hc
  exact Option.map_eq_some_iff.mpr ⟨d, hd, he.trans hl⟩

theorem Lifetimes.fewer {s t : State} (hs : Lifetimes s) (h : Fewer s t) (hl : t.lifetimes = s.lifetimes)
    (hr : ∀ r ∈ t.requests, r ∈ s.requests) : Lifetimes t where
  claims key c hc := by
    obtain ⟨d, hd, he⟩ := h key c hc
    exact hl ▸ he ▸ hs.claims key d hd
  requests r hm := hl ▸ hs.requests r (hr r hm)
  reaping r hm t l hstage hc := hs.reaping r (hr r hm) t l hstage (h.lifetimeOf hc)

theorem Fewer.refl (s : State) : Fewer s s := fun _ c hc => ⟨c, hc, rfl⟩

theorem fewer_filter (s : State) (p : String × Nat → Claim → Bool) :
    Fewer s { s with consumers := s.consumers.filter p } := by
  intro key c hc
  rw [get?_filter, Option.filter_eq_some_iff] at hc
  exact ⟨c, hc.1, rfl⟩

theorem fewer_erase (s : State) (key : String × Nat) : Fewer s { s with consumers := s.consumers.erase key } := by
  intro key' c hc
  rw [get?_erase] at hc
  split at hc
  · cases hc
  · exact ⟨c, hc, rfl⟩

theorem fewer_release (s : State) (account : String) (renderer : Nat) (token : Option Nat) :
    Fewer s (release s account renderer token) := by
  rw [release.eq_def]
  split
  · exact fewer_erase s _
  · exact .refl s
  rename_i c hc
  dsimp only
  split
  · exact fewer_erase s _
  intro key d hd
  rw [get?_set] at hd
  split at hd
  · rename_i hkey
    cases hd
    exact ⟨c, hkey ▸ hc, rfl⟩
  · exact ⟨d, hd, rfl⟩

section Teardowns

variable {s : State} {account : String}

theorem Tables.congr {t : State} (hs : Tables s) (hl : t.loopbacks = s.loopbacks) (hh : t.handles = s.handles)
    (ht : t.teardowns = s.teardowns) (hf : t.flights = s.flights) : Tables t where
  running := by rw [hl, hh]; exact hs.running
  handled := by rw [hl, hh]; exact hs.handled
  upright := by
    unfold isTorn
    rw [hl, hh, ht]
    exact hs.upright
  hooking := by
    unfold isTorn
    rw [hl, hh, ht]
    exact hs.hooking
  stopping := by rw [ht, hh]; exact hs.stopping
  flying := by rw [hf, hh, ht]; exact hs.flying

theorem Tables.queued (hs : Tables s) {t : Teardown} (h : s.teardowns.get? account = some t) (stop : Queued) :
    Tables { s with teardowns := s.teardowns.set account { t with queue := t.queue ++ [stop] } } where
  running := hs.running
  handled := hs.handled
  upright a l ha hn := by
    rw [get?_set] at hn
    split at hn
    · cases hn
    · exact hs.upright a l ha hn
  hooking a u l hu ha := by
    rw [get?_set] at hu
    split at hu
    · rename_i he
      exact hs.hooking account t l h (he ▸ ha)
    · exact hs.hooking a u l hu ha
  stopping a u hu hst := by
    rw [get?_set] at hu
    split at hu
    · rename_i ha
      cases hu
      exact ha ▸ hs.stopping account t h hst
    · exact hs.stopping a u hu hst
  flying a r hr := by
    obtain ⟨ha, hh, ht⟩ := hs.flying a r hr
    refine ⟨ha, hh, ?_⟩
    rw [get?_set]
    split
    · rename_i heq
      cases (heq ▸ ht).symm.trans h
    · exact ht

theorem modify_torn {loopbacks : List Loopback} {l m : Nat} {lb : Loopback}
    (h : (loopbacks.modify l fun lb => { lb with torn := true })[m]? = some lb) :
    (m = l ∧ lb.torn = true ∧ ∃ mb : Loopback, loopbacks[m]? = some mb ∧ mb.account = lb.account) ∨
      (m ≠ l ∧ loopbacks[m]? = some lb) := by
  rw [List.getElem?_modify, Option.map_eq_map, Option.map_eq_some_iff] at h
  obtain ⟨mb, hmb, rfl⟩ := h
  by_cases hm : l = m
  · rw [if_pos hm]
    exact .inl ⟨hm.symm, rfl, mb, hmb, rfl⟩
  · rw [if_neg hm]
    exact .inr ⟨Ne.symm hm, hmb⟩

theorem Tables.begun (hs : Tables s) {l : Nat} (h : s.handles.get? account = some l) (stop : Queued)
    (queue : List Queued) : Tables (beginTeardown s account l stop queue) where
  running m lb hm hlive := by
    rcases modify_torn hm with ⟨-, htorn, -⟩ | ⟨-, hm⟩
    · cases hlive.symm.trans htorn
    · exact hs.running m lb hm hlive
  handled a m ha := by
    obtain ⟨lb, hlb, hacc⟩ := hs.handled a m ha
    simp only [beginTeardown, List.getElem?_modify, hlb, Option.map_eq_map, Option.map_some]
    exact ⟨_, rfl, by split <;> exact hacc⟩
  upright a m ha hn := by
    simp only [beginTeardown, get?_set] at hn
    split at hn
    · cases hn
    rename_i hne
    have hup := hs.upright a m ha hn
    have hml : l ≠ m := by
      rintro rfl
      obtain ⟨lb, hlb, hacc⟩ := hs.handled a l ha
      obtain ⟨mb, hmb, hacc'⟩ := hs.handled account l h
      cases hlb.symm.trans hmb
      exact hne (hacc.symm.trans hacc')
    simpa [isTorn, beginTeardown, List.getElem?_modify, hml] using hup
  hooking a t m ht ha := by
    obtain ⟨lb, hlb, -⟩ := hs.handled a m ha
    simp only [isTorn, beginTeardown, List.getElem?_modify, hlb, Option.map_eq_map, Option.map_some, Option.any_some]
    split
    · rfl
    rename_i hne
    simp only [beginTeardown, get?_set] at ht
    split at ht
    · rename_i he
      exact (hne (Option.some.inj (h.symm.trans (he ▸ ha)))).elim
    · exact (isTorn_of_getElem? hlb).symm.trans (hs.hooking a t m ht ha)
  stopping a t ht hst := by
    simp only [beginTeardown, get?_set] at ht
    split at ht
    · cases ht
      cases hst
    · exact hs.stopping a t ht hst
  flying a r hr := by
    obtain ⟨ha, hh, ht⟩ := hs.flying a r hr
    refine ⟨ha, hh, ?_⟩
    simp only [beginTeardown, get?_set]
    split
    · rename_i heq
      cases (heq ▸ hh).symm.trans h
    · exact ht

theorem stopLoopback_fields (s : State) (account : String) (all : Bool) :
    (stopLoopback s account all).1.consumers = (clearAccount s account).consumers ∧
      (stopLoopback s account all).1.lifetimes = s.lifetimes ∧
      (stopLoopback s account all).1.requests = s.requests ∧
      (stopLoopback s account all).1.replies = s.replies := by
  rw [stopLoopback]
  split <;> exact ⟨rfl, rfl, rfl, rfl⟩

theorem hasConsumers_stopLoopback (all : Bool) : hasConsumers (stopLoopback s account all).1 account = false := by
  rw [hasConsumers, (stopLoopback_fields s account all).1]
  exact hasConsumers_clearAccount

theorem Sound.stopLoopback (hs : Sound s) {all : Bool} (h : all = true ∨ hasConsumers s account = false) :
    Sound (stopLoopback s account all).1 where
  tables := by
    rw [Loopbacks.stopLoopback]
    have hcou : Tables { clearAccount s account with stops := s.stops + 1 } := hs.tables.congr rfl rfl rfl rfl
    split
    · rename_i t ht
      exact hcou.queued ht _
    · rename_i l _ hl
      exact hcou.begun hl _ _
    · exact hcou
  lifetimes := by
    obtain ⟨hc, hl, hr, -⟩ := stopLoopback_fields s account all
    refine hs.lifetimes.fewer ?_ hl (hr ▸ fun _ hm => hm)
    intro key c hk
    rw [hc] at hk
    exact fewer_filter s _ key c hk
  logs := by
    constructor
    · rw [(stopLoopback_fields s account all).2.2.2]
      exact hs.logs.replies
    rw [Loopbacks.stopLoopback]
    split
    · exact hs.logs.begun
    · intro b hb
      rcases mem_append.mp hb with hb | hb
      · exact hs.logs.begun b hb
      · rw [mem_singleton.mp hb]
        exact h
    · exact hs.logs.begun

theorem Sound.stopLoopbackIfUnclaimed (hs : Sound s) : Sound (stopLoopbackIfUnclaimed s account).1 := by
  rw [Loopbacks.stopLoopbackIfUnclaimed]
  split
  · exact hs
  · rename_i h
    exact hs.stopLoopback (.inr (by simpa using h))

theorem release_fields (s : State) (account : String) (renderer : Nat) (token : Option Nat) :
    ∃ consumers, release s account renderer token = { s with consumers } := by
  rw [release.eq_def]
  split
  · exact ⟨_, rfl⟩
  · exact ⟨s.consumers, rfl⟩
  · dsimp only
    split <;> exact ⟨_, rfl⟩

theorem Sound.fewer {consumers : Dict (String × Nat) Claim} (hs : Sound s) (h : Fewer s { s with consumers }) :
    Sound { s with consumers } :=
  ⟨hs.tables.congr rfl rfl rfl rfl, hs.lifetimes.fewer h rfl (fun _ hm => hm), hs.logs.replies, hs.logs.begun⟩

theorem Sound.release (hs : Sound s) (renderer : Nat) (token : Option Nat) :
    Sound (release s account renderer token) := by
  have h := fewer_release s account renderer token
  obtain ⟨consumers, hc⟩ := release_fields s account renderer token
  rw [hc] at h ⊢
  exact hs.fewer h

theorem Sound.releaseLoopbackClaim (hs : Sound s) (renderer : Nat) (token : Option Nat) :
    Sound (releaseLoopbackClaim s account renderer token) :=
  (hs.release renderer token).stopLoopbackIfUnclaimed

theorem Sound.stopAllLoopbacks (hs : Sound s) : Sound (stopAllLoopbacks s) := by
  rw [Loopbacks.stopAllLoopbacks]
  generalize s.handles.keys = accounts
  induction accounts generalizing s with
  | nil => exact hs
  | cons account accounts ih => exact ih (hs.stopLoopback (.inl rfl))

theorem Sound.rendererDestroyed (hs : Sound s) (renderer : Nat) : Sound (rendererDestroyed s renderer) := by
  rw [Loopbacks.rendererDestroyed]
  split
  · dsimp only
    have hleft : Sound { s with
        observedRenderers := s.observedRenderers.erase renderer
        consumers := s.consumers.filter fun key _ => key.2 ≠ renderer } :=
      ⟨hs.tables.congr rfl rfl rfl rfl, hs.lifetimes.fewer (fewer_filter s _) rfl (fun _ hm => hm), hs.logs.replies,
        hs.logs.begun⟩
    generalize emptiedBy s renderer = accounts
    revert hleft
    generalize ({ s with
        observedRenderers := s.observedRenderers.erase renderer
        consumers := s.consumers.filter fun key _ => key.2 ≠ renderer } : State) = t
    intro ht
    induction accounts generalizing t with
    | nil => exact ht
    | cons account accounts ih => exact ih _ ht.stopLoopbackIfUnclaimed
  · exact hs

end Teardowns

section Claims

variable {s : State}

theorem claim_fields (s : State) (account : String) (renderer : Nat) (token : Option Nat) :
    ∃ consumers lifetimes, claim s account renderer token = { s with consumers, lifetimes } := by
  rw [claim]
  split <;> exact ⟨_, _, rfl⟩

theorem le_lifetimes_claim (s : State) (account : String) (renderer : Nat) (token : Option Nat) :
    s.lifetimes ≤ (claim s account renderer token).lifetimes := by
  rw [claim]
  split
  · exact le_rfl
  · exact Nat.le_succ _

theorem get?_claim {account : String} {renderer : Nat} {token : Option Nat} {key : String × Nat} {c : Claim}
    (h : (claim s account renderer token).consumers.get? key = some c) :
    (∃ d, s.consumers.get? key = some d ∧ d.lifetime = c.lifetime) ∨
      (c.lifetime = s.lifetimes ∧ s.lifetimes < (claim s account renderer token).lifetimes) := by
  rw [claim] at h ⊢
  split at h
  · rename_i d hd
    rw [get?_set] at h
    split at h
    · rename_i hk
      cases h
      exact .inl ⟨d, hk ▸ hd, rfl⟩
    · exact .inl ⟨c, h, rfl⟩
  rw [get?_set] at h
  split at h
  · cases h
    exact .inr ⟨rfl, Nat.lt_succ_self _⟩
  · exact .inl ⟨c, h, rfl⟩

theorem Lifetimes.claim (hs : Lifetimes s) (account : String) (renderer : Nat) (token : Option Nat) :
    Lifetimes (claim s account renderer token) := by
  have hle := le_lifetimes_claim s account renderer token
  have hget := fun key c => @get?_claim s account renderer token key c
  obtain ⟨consumers, lifetimes, hc⟩ := claim_fields s account renderer token
  rw [hc] at hle hget ⊢
  refine ⟨fun key c h => ?_, fun r hr => lt_of_lt_of_le (hs.requests r hr) hle, ?_⟩
  · rcases hget key c h with ⟨d, hd, he⟩ | ⟨he, hlt⟩
    · exact he ▸ lt_of_lt_of_le (hs.claims key d hd) hle
    · exact he ▸ hlt
  intro r hr t l hstage hlife
  obtain ⟨c, hk, he⟩ := Option.map_eq_some_iff.mp hlife
  rcases hget _ c hk with ⟨d, hd, hd'⟩ | ⟨hnew, -⟩
  · exact hs.reaping r hr t l hstage (Option.map_eq_some_iff.mpr ⟨d, hd, hd'.trans he⟩)
  · have hlt := hs.requests r hr
    omega

theorem Sound.claim (hs : Sound s) (account : String) (renderer : Nat) (token : Option Nat) :
    Sound (claim s account renderer token) := by
  have hl := hs.lifetimes.claim account renderer token
  obtain ⟨consumers, lifetimes, hc⟩ := claim_fields s account renderer token
  rw [hc] at hl ⊢
  exact ⟨hs.tables.congr rfl rfl rfl rfl, hl, hs.logs.replies, hs.logs.begun⟩

theorem lifetimeOf_claim_lt (hs : Lifetimes s) (account : String) (renderer : Nat) (token : Option Nat) (d : Nat) :
    (lifetimeOf (claim s account renderer token) account renderer).getD d <
      (claim s account renderer token).lifetimes := by
  have hcla := (hs.claim account renderer token).claims
  have hsome : ((claim s account renderer token).consumers.get? (account, renderer)).isSome := by
    rw [claim]
    split <;> simp
  obtain ⟨c, hc⟩ := Option.isSome_iff_exists.mp hsome
  rw [lifetimeOf, hc]
  exact hcla _ c hc

end Claims

section Starts

variable {s : State} {r : Request} {loopback : Nat}

theorem Sound.answer (hs : Sound s)
    (h : lifetimeOf s r.account r.renderer = some r.lifetime → isTorn s loopback = false) :
    Sound (answer s r loopback) where
  tables := hs.tables.congr rfl rfl rfl rfl
  lifetimes := ⟨hs.lifetimes.claims, hs.lifetimes.requests, hs.lifetimes.reaping⟩
  logs := by
    refine ⟨fun reply hrep hcla => ?_, hs.logs.begun⟩
    rcases mem_append.mp hrep with hrep | hrep
    · exact hs.logs.replies reply hrep hcla
    · rw [mem_singleton.mp hrep] at hcla ⊢
      exact h (of_decide_eq_true hcla)

def Upheld (s : State) (account : String) (loopback : Nat) : Prop :=
  hasConsumers s account = true → isTorn s loopback = false

theorem Sound.afterStart (hs : Sound s) (hr : r.lifetime < s.lifetimes) (h : Upheld s r.account loopback) :
    Sound (afterStart s r loopback) ∧ Upheld (afterStart s r loopback) r.account loopback ∧
      (afterStart s r loopback).lifetimes = s.lifetimes := by
  cases hc : hasConsumers s r.account with
  | true =>
    have hstop : Loopbacks.stopLoopbackIfUnclaimed s r.account = (s, none) := by
      rw [Loopbacks.stopLoopbackIfUnclaimed, if_pos hc]
    rw [Loopbacks.afterStart, hstop]
    exact ⟨hs.answer (fun _ => h hc), h, rfl⟩
  | false =>
    have hstop : Loopbacks.stopLoopbackIfUnclaimed s r.account = Loopbacks.stopLoopback s r.account false := by
      rw [Loopbacks.stopLoopbackIfUnclaimed, if_neg (by simp [hc])]
    have hgone := @hasConsumers_stopLoopback s r.account false
    have hlast := (stopLoopback_fields s r.account false).2.1
    have hsto : Sound (Loopbacks.stopLoopback s r.account false).1 := hs.stopLoopback (.inr hc)
    have hup : Upheld (Loopbacks.stopLoopback s r.account false).1 r.account loopback :=
      fun hc' => by cases hgone.symm.trans hc'
    rw [Loopbacks.afterStart, hstop]
    revert hgone hlast hsto hup
    generalize Loopbacks.stopLoopback s r.account false = stopped
    obtain ⟨t, teardown⟩ := stopped
    intro hgone hlast hsto hup
    cases teardown with
    | none =>
      refine ⟨hsto.answer fun hlife => ?_, hup, hlast⟩
      cases (lifetimeOf_of_unclaimed hgone).symm.trans hlife
    | some teardown =>
      refine ⟨⟨hsto.tables.congr rfl rfl rfl rfl, ?_, hsto.logs.replies, hsto.logs.begun⟩, hup, hlast⟩
      refine ⟨hsto.lifetimes.claims, ?_, ?_⟩
      · intro q hq
        rcases mem_append.mp hq with hq | hq
        · exact hsto.lifetimes.requests q hq
        · rw [mem_singleton.mp hq]
          exact hlast ▸ hr
      intro q hq u l hstage hlife
      rcases mem_append.mp hq with hq | hq
      · exact hsto.lifetimes.reaping q hq u l hstage hlife
      · rw [mem_singleton.mp hq] at hlife
        cases (lifetimeOf_of_unclaimed hgone).symm.trans hlife

variable {waiting : List Request}

theorem Sound.afterStarts (hw : ∀ r ∈ waiting, r.account = account ∧ r.lifetime < s.lifetimes) (hs : Sound s)
    (h : Upheld s account loopback) : Sound (waiting.foldl (fun s r => Loopbacks.afterStart s r loopback) s) := by
  induction waiting generalizing s with
  | nil => exact hs
  | cons r waiting ih =>
    obtain ⟨rfl, hr⟩ := hw r mem_cons_self
    obtain ⟨hs', hup, hlast⟩ := hs.afterStart hr h
    exact ih (fun q hq => hlast ▸ hw q (mem_cons_of_mem _ hq)) hs' hup

theorem Sound.vaulted (hs : Sound s) {vault : Dict String RememberedCredentialRecord} : Sound { s with vault } :=
  ⟨hs.tables.congr rfl rfl rfl rfl, ⟨hs.lifetimes.claims, hs.lifetimes.requests, hs.lifetimes.reaping⟩,
    hs.logs.replies, hs.logs.begun⟩

theorem Sound.removeRememberedCredential (hs : Sound s) (account : String) :
    Sound (removeRememberedCredential s account) := by
  rw [Loopbacks.removeRememberedCredential]
  split
  · exact hs.vaulted
  · exact hs

theorem lifetimes_removeRememberedCredential (s : State) (account : String) :
    (removeRememberedCredential s account).lifetimes = s.lifetimes ∧
      (removeRememberedCredential s account).consumers = s.consumers ∧
      (removeRememberedCredential s account).teardowns = s.teardowns := by
  rw [removeRememberedCredential]
  split <;> exact ⟨rfl, rfl, rfl⟩

theorem Sound.observeRenderer (hs : Sound s) (renderer : Nat) : Sound (observeRenderer s renderer) :=
  ⟨hs.tables.congr rfl rfl rfl rfl, ⟨hs.lifetimes.claims, hs.lifetimes.requests, hs.lifetimes.reaping⟩,
    hs.logs.replies, hs.logs.begun⟩

theorem Sound.landed (hs : Sound s) (account : String) : Sound (landed s account).1 := by
  refine ⟨⟨hs.tables.running, hs.tables.handled, hs.tables.upright, hs.tables.hooking, hs.tables.stopping,
      fun a r hr => ?_⟩,
    ⟨hs.lifetimes.claims, fun r hr => hs.lifetimes.requests r (mem_of_mem_filter hr),
      fun r hr => hs.lifetimes.reaping r (mem_of_mem_filter hr)⟩, hs.logs.replies, hs.logs.begun⟩
  simp only [Loopbacks.landed, get?_erase] at hr
  split at hr
  · cases hr
  · exact hs.tables.flying a r hr

variable {owner : Request}

theorem Tables.installLoopback (hs : Tables s)
    (h : s.flights.get? account = some owner) (target : VerifiedLoopbackTarget) :
    Tables (Loopbacks.installLoopback s owner target) := by
  obtain ⟨rfl, hh, ht⟩ := hs.flying account owner h
  have hnew : ∀ (l : Nat) (lb : Loopback), (s.loopbacks ++ [⟨owner.account, target, false⟩])[l]? = some lb →
      s.loopbacks[l]? = some lb ∨ (l = s.loopbacks.length ∧ lb = ⟨owner.account, target, false⟩) := by
    intro l lb hl
    rw [List.getElem?_append] at hl
    split at hl
    · exact .inl hl
    obtain ⟨hlt, he⟩ := List.getElem?_eq_some_iff.mp hl
    simp only [length_cons, length_nil] at hlt
    refine .inr ⟨by omega, ?_⟩
    rw [← he]
    simp
  have hold : ∀ (l : Nat), l < s.loopbacks.length →
      (s.loopbacks ++ [⟨owner.account, target, false⟩])[l]? = s.loopbacks[l]? :=
    fun l hl => List.getElem?_append_left hl
  constructor
  · intro l lb hl hlive
    simp only [installLoopback] at hl ⊢
    rw [get?_set]
    rcases hnew l lb hl with hl | ⟨rfl, rfl⟩
    · have hr := hs.running l lb hl hlive
      rw [if_neg, hr]
      intro he
      cases (he ▸ hr).symm.trans hh
    · rw [if_pos rfl]
  · intro a l ha
    simp only [installLoopback] at ha ⊢
    rw [get?_set] at ha
    split at ha
    · rename_i he
      cases ha
      exact ⟨⟨owner.account, target, false⟩, by simp, he.symm⟩
    · obtain ⟨lb, hlb, hacc⟩ := hs.handled a l ha
      exact ⟨lb, (hold l (List.getElem?_eq_some_iff.mp hlb).1).trans hlb, hacc⟩
  · intro a l ha hn
    simp only [installLoopback] at ha
    rw [get?_set] at ha
    split at ha
    · cases ha
      simp [isTorn, installLoopback]
    obtain ⟨lb, hlb, -⟩ := hs.handled a l ha
    have hup := hs.upright a l ha hn
    rw [isTorn, installLoopback]
    rw [hold l (List.getElem?_eq_some_iff.mp hlb).1]
    exact hup
  · intro a t l hstop ha
    simp only [installLoopback] at ha
    rw [get?_set] at ha
    split at ha
    · rename_i he
      cases (he ▸ hstop).symm.trans ht
    obtain ⟨lb, hlb, -⟩ := hs.handled a l ha
    have htorn := hs.hooking a t l hstop ha
    rw [isTorn, installLoopback]
    rw [hold l (List.getElem?_eq_some_iff.mp hlb).1]
    exact htorn
  · intro a t hstop hst
    rw [installLoopback, get?_set]
    split
    · rename_i he
      cases (he ▸ hstop).symm.trans ht
    · exact hs.stopping a t hstop hst
  · intro a r hr
    simp only [installLoopback, landed, get?_erase] at hr
    split at hr
    · cases hr
    rename_i hne
    obtain ⟨ha, hh', ht'⟩ := hs.flying a r hr
    refine ⟨ha, ?_, ht'⟩
    rw [installLoopback, get?_set, if_neg hne]
    exact hh'

theorem isFlying_account (h : isFlying account r = true) : r.account = account := by
  rw [isFlying, Bool.and_eq_true] at h
  exact of_decide_eq_true h.1

variable [Platform]

theorem Sound.failStart (hs : Sound s) (message : String) : Sound (failStart s r message) := by
  rw [Loopbacks.failStart]
  split
  · exact (hs.releaseLoopbackClaim _ _).removeRememberedCredential _
  · exact hs.releaseLoopbackClaim _ _

theorem Sound.failStarts (message : String) (hs : Sound s) :
    Sound (waiting.foldl (fun s r => Loopbacks.failStart s r message) s) := by
  induction waiting generalizing s with
  | nil => exact hs
  | cons r waiting ih => exact ih (hs.failStart message)

theorem Sound.joins (hs : Sound s) (hh : s.handles.get? r.account = none) (ht : s.teardowns.get? r.account = none)
    (hr : r.lifetime < s.lifetimes) : Sound (proceedStart s r) := by
  rw [proceedStart, hh]
  dsimp only
  refine ⟨⟨hs.tables.running, hs.tables.handled, hs.tables.upright, hs.tables.hooking, hs.tables.stopping, ?_⟩,
    ⟨hs.lifetimes.claims, ?_, ?_⟩, hs.logs.replies, hs.logs.begun⟩
  · intro a q hq
    split at hq
    · exact hs.tables.flying a q hq
    rw [get?_set] at hq
    split at hq
    · rename_i ha
      cases hq
      exact ⟨ha.symm, ha ▸ hh, ha ▸ ht⟩
    · exact hs.tables.flying a q hq
  · intro q hq
    rcases mem_append.mp hq with hq | hq
    · exact hs.lifetimes.requests q hq
    · rw [mem_singleton.mp hq]
      exact hr
  intro q hq t l hstage
  rcases mem_append.mp hq with hq | hq
  · exact hs.lifetimes.reaping q hq t l hstage
  · rw [mem_singleton.mp hq] at hstage
    cases hstage

theorem joins_fields (hh : s.handles.get? r.account = none) :
    (proceedStart s r).handles = s.handles ∧ (proceedStart s r).teardowns = s.teardowns ∧
      (proceedStart s r).lifetimes = s.lifetimes := by
  rw [proceedStart, hh]
  exact ⟨rfl, rfl, rfl⟩

theorem Sound.proceedStart (hs : Sound s) (ht : s.teardowns.get? r.account = none) (hr : r.lifetime < s.lifetimes) :
    Sound (proceedStart s r) := by
  cases hh : s.handles.get? r.account with
  | none => exact hs.joins hh ht hr
  | some loopback =>
    rw [Loopbacks.proceedStart, hh]
    dsimp only
    split
    · exact (hs.afterStart hr fun _ => hs.tables.upright _ _ hh ht).1
    · exact hs.failStart _

omit [Platform] in
theorem Sound.beginPreference (hs : Sound s) (account : String) (remember : Option Bool) :
    Sound (beginPreference s account remember).1 := by
  have hpre : ∀ (generations : Dict String Nat) (forgotten : List String),
      Sound { s with generations, forgotten } := fun _ _ =>
    ⟨hs.tables.congr rfl rfl rfl rfl, ⟨hs.lifetimes.claims, hs.lifetimes.requests, hs.lifetimes.reaping⟩,
      hs.logs.replies, hs.logs.begun⟩
  rw [beginPreference.eq_def]
  split
  · exact hs
  · exact hpre _ _
  · exact (hpre _ _).removeRememberedCredential account

omit [Platform] in
theorem beginPreference_fields (s : State) (account : String) (remember : Option Bool) :
    (beginPreference s account remember).1.lifetimes = s.lifetimes ∧
      (beginPreference s account remember).1.consumers = s.consumers := by
  rw [beginPreference.eq_def]
  split
  · exact ⟨rfl, rfl⟩
  · exact ⟨rfl, rfl⟩
  · exact ⟨(lifetimes_removeRememberedCredential _ account).1, (lifetimes_removeRememberedCredential _ account).2.1⟩

theorem Sound.startLoopback (hs : Sound s) {renderer : Nat} {args : StartArgs}
    (h : ∀ d, (lifetimeOf s args.accountId renderer).getD d < s.lifetimes)
    (remembered : Option (RememberedCredentialRecord × StartArgs)) :
    Sound (startLoopback s renderer args remembered) := by
  obtain ⟨hlast, hcon⟩ := beginPreference_fields s args.accountId args.remember
  have hbeg := hs.beginPreference args.accountId args.remember
  rw [Loopbacks.startLoopback]
  revert hlast hcon hbeg
  generalize Loopbacks.beginPreference s args.accountId args.remember = begun
  obtain ⟨t, lease⟩ := begun
  intro hlast hcon hbeg
  have hlife : (lifetimeOf t args.accountId renderer).getD t.lifetimes < t.lifetimes := by
    unfold lifetimeOf
    rw [hlast, hcon]
    exact h _
  dsimp only
  split
  · refine ⟨hbeg.tables.congr rfl rfl rfl rfl, ⟨hbeg.lifetimes.claims, fun q hq => ?_, fun q hq u l hstage => ?_⟩,
      hbeg.logs.replies, hbeg.logs.begun⟩
    · rcases mem_append.mp hq with hq | hq
      · exact hbeg.lifetimes.requests q hq
      · rw [mem_singleton.mp hq]
        exact hlife
    · rcases mem_append.mp hq with hq | hq
      · exact hbeg.lifetimes.reaping q hq u l hstage
      · rw [mem_singleton.mp hq] at hstage
        cases hstage
  rename_i hbar
  have hopen : t.teardowns.get? args.accountId = none := by simpa using hbar
  exact hbeg.proceedStart hopen hlife

theorem Sound.handleStart (hs : Sound s) (renderer : Nat) (args : StartArgs) : Sound (handleStart s renderer args) := by
  rw [Loopbacks.handleStart]
  split
  · have hobs := hs.observeRenderer renderer
    refine (hobs.claim _ _ _).startLoopback (fun d => ?_) none
    exact lifetimeOf_claim_lt hobs.lifetimes _ _ _ d
  · exact hs

theorem Sound.loadRememberedCredential (hs : Sound s) (account : String) :
    Sound (loadRememberedCredential s account).1 := by
  rw [Loopbacks.loadRememberedCredential]
  split
  · split
    · exact hs
    · split
      · exact hs
      · exact hs.vaulted
  · exact hs

theorem Sound.handleStartRemembered (hs : Sound s) (renderer : Nat) (args : StartArgs) :
    Sound (handleStartRemembered s renderer args) := by
  rw [Loopbacks.handleStartRemembered]
  split
  · have hobs := hs.observeRenderer renderer
    dsimp only
    split
    · have hloa := hobs.loadRememberedCredential args.accountId
      split
      · rename_i t heq
        rw [heq] at hloa
        exact hloa
      rename_i t credential heq
      rw [heq] at hloa
      split
      · exact (hloa.claim _ _ _).startLoopback (fun d => lifetimeOf_claim_lt hloa.lifetimes _ _ _ d) _
      · exact hloa.removeRememberedCredential _
    · exact hobs
  · exact hs

theorem Sound.failFlight (hs : Sound s) (account message : String) : Sound (failFlight s account message) :=
  (hs.landed account).failStarts message

theorem Sound.persistOwner (hs : Sound s) (owner : Request) (target : VerifiedLoopbackTarget) :
    Sound (persistOwner s owner target) := by
  rw [Loopbacks.persistOwner]
  split
  · rw [saveRememberedCredential]
    split
    · split
      · exact hs.vaulted
      · exact hs
    · exact hs
  · exact hs

theorem persistOwner_fields (s : State) (owner : Request) (target : VerifiedLoopbackTarget) :
    ∃ vault, persistOwner s owner target = { s with vault } := by
  rw [persistOwner]
  split
  · rw [saveRememberedCredential]
    split
    · split
      · exact ⟨_, rfl⟩
      · exact ⟨s.vault, rfl⟩
    · exact ⟨s.vault, rfl⟩
  · exact ⟨s.vault, rfl⟩

omit [Platform] in
theorem Sound.installLoopback (hs : Sound s)
    (h : s.flights.get? account = some owner) (target : VerifiedLoopbackTarget) :
    Sound (installLoopback s owner target) := by
  have hlan := hs.landed owner.account
  exact ⟨hs.tables.installLoopback h target,
    ⟨hlan.lifetimes.claims, hlan.lifetimes.requests, hlan.lifetimes.reaping⟩, hlan.logs.replies,
    hlan.logs.begun⟩

theorem Sound.finishFlight (hs : Sound s)
    (h : s.flights.get? account = some owner) (target : VerifiedLoopbackTarget) (hook : Option String) :
    Sound (finishFlight s owner target hook) := by
  have hset := hs.installLoopback h target
  have hlast : (Loopbacks.installLoopback s owner target).lifetimes = s.lifetimes := rfl
  have hup : isTorn (Loopbacks.installLoopback s owner target) s.loopbacks.length = false := by
    simp [isTorn, Loopbacks.installLoopback]
  rw [Loopbacks.finishFlight.eq_def]
  dsimp only
  revert hset hlast hup
  generalize Loopbacks.installLoopback s owner target = t
  intro hset hlast hup
  cases hook with
  | some message => exact hset.failStarts message
  | none =>
    have hper := hset.persistOwner owner target
    obtain ⟨vault, hv⟩ := persistOwner_fields t owner target
    rw [hv] at hper ⊢
    have hw : ∀ r ∈ (Loopbacks.landed s owner.account).2, r.account = owner.account ∧ r.lifetime < t.lifetimes := by
      intro r hr
      obtain ⟨hr, hfly⟩ := mem_filter.mp hr
      exact ⟨isFlying_account hfly, hlast ▸ hs.lifetimes.requests r hr⟩
    exact Sound.afterStarts hw hper (fun _ => hup)

omit [Platform] in
theorem answerReaped_fields (s : State) (r : Request) : ∃ replies, answerReaped s r = { s with replies } := by
  rw [answerReaped]
  split
  · exact ⟨_, rfl⟩
  · exact ⟨s.replies, rfl⟩
  · exact ⟨s.replies, rfl⟩

omit [Platform] in
theorem Sound.answerReaped
    (hw : ∀ r ∈ waiting, ∀ t l, r.stage = .reaping t l → lifetimeOf s r.account r.renderer ≠ some r.lifetime)
    (hs : Sound s) : Sound (waiting.foldl answerReaped s) := by
  induction waiting generalizing s with
  | nil => exact hs
  | cons r waiting ih =>
    have hans : Sound (answerReaped s r) := by
      rw [answerReaped]
      split
      · rename_i t l hstage
        exact hs.answer fun hlife => (hw r mem_cons_self t l hstage hlife).elim
      · exact hs
      · exact hs
    refine ih (fun q hq => ?_) hans
    obtain ⟨replies, hr⟩ := answerReaped_fields s r
    rw [hr]
    exact hw q (mem_cons_of_mem _ hq)

omit [Platform] in
theorem Sound.withRequests (hs : Sound s) {requests : List Request} (h : ∀ r ∈ requests, r ∈ s.requests) :
    Sound { s with requests } :=
  ⟨hs.tables.congr rfl rfl rfl rfl,
    ⟨hs.lifetimes.claims, fun r hr => hs.lifetimes.requests r (h r hr), fun r hr => hs.lifetimes.reaping r (h r hr)⟩,
    hs.logs.replies, hs.logs.begun⟩

omit [Platform] in
theorem Sound.resolveStops (hs : Sound s) (done : List Nat) : Sound (resolveStops s done) := by
  refine Sound.answerReaped (fun r hr => ?_) (hs.withRequests fun r hr => mem_of_mem_filter hr)
  exact hs.lifetimes.reaping r (mem_of_mem_filter hr)

omit [Platform] in
theorem resolveStops_fields (s : State) (done : List Nat) :
    ∃ requests replies, resolveStops s done = { s with requests, replies } := by
  rw [resolveStops]
  generalize s.requests.filter (isReaping done) = waiting
  generalize s.requests.filter (fun r => !isReaping done r) = requests
  have hfold : ∀ t : State, ∃ replies, waiting.foldl answerReaped t = { t with replies } := by
    induction waiting with
    | nil => exact fun t => ⟨t.replies, rfl⟩
    | cons r waiting ih =>
      intro t
      obtain ⟨replies, hr⟩ := answerReaped_fields t r
      obtain ⟨replies', hr'⟩ := ih { t with replies }
      exact ⟨replies', by rw [foldl_cons, hr, hr']⟩
  obtain ⟨replies, hr⟩ := hfold { s with requests }
  exact ⟨requests, replies, hr⟩

theorem Sound.proceedStarts (hw : ∀ r ∈ waiting, r.account = account ∧ r.lifetime < s.lifetimes) (hs : Sound s)
    (hh : s.handles.get? account = none) (ht : s.teardowns.get? account = none) :
    Sound (waiting.foldl (fun s r => Loopbacks.proceedStart s r) s) := by
  induction waiting generalizing s with
  | nil => exact hs
  | cons r waiting ih =>
    obtain ⟨rfl, hr⟩ := hw r mem_cons_self
    obtain ⟨hhan, htea, hlast⟩ := joins_fields hh
    exact ih (fun q hq => hlast ▸ hw q (mem_cons_of_mem _ hq)) (hs.joins hh ht hr) (hhan ▸ hh) (htea ▸ ht)

theorem Sound.liftBarrier (hs : Sound s) (hh : s.handles.get? account = none) : Sound (liftBarrier s account) := by
  have hlif : Sound { s with
      teardowns := s.teardowns.erase account
      requests := s.requests.filter fun r => !isBarred account r } := by
    have hfew : Sound { s with requests := s.requests.filter fun r => !isBarred account r } :=
      hs.withRequests fun r hr => mem_of_mem_filter hr
    refine ⟨⟨hs.tables.running, hs.tables.handled, fun a l ha hn => ?_, fun a t l ht ha => ?_, fun a t ht hst => ?_,
        fun a r hr => ?_⟩,
      ⟨hfew.lifetimes.claims, hfew.lifetimes.requests, hfew.lifetimes.reaping⟩, hs.logs.replies, hs.logs.begun⟩
    · dsimp only at hn
      rw [get?_erase] at hn
      split at hn
      · rename_i he
        cases (he ▸ ha).symm.trans hh
      · exact hs.tables.upright a l ha hn
    · dsimp only at ht
      rw [get?_erase] at ht
      split at ht
      · cases ht
      · exact hs.tables.hooking a t l ht ha
    · dsimp only at ht
      rw [get?_erase] at ht
      split at ht
      · cases ht
      · exact hs.tables.stopping a t ht hst
    · obtain ⟨hacc, hh', ht'⟩ := hs.tables.flying a r hr
      refine ⟨hacc, hh', ?_⟩
      rw [get?_erase]
      split
      · rfl
      · exact ht'
  refine Sound.proceedStarts (fun r hr => ?_) hlif hh (get?_erase_self _ _)
  obtain ⟨hr, hbar⟩ := mem_filter.mp hr
  rw [isBarred, Bool.and_eq_true] at hbar
  exact ⟨of_decide_eq_true hbar.1, hs.lifetimes.requests r hr⟩

theorem Sound.settleStops (hs : Sound s) (hh : s.handles.get? account = none)
    (done : List Nat) (queue : List Queued) : Sound (settleStops s account done queue) := by
  induction queue generalizing done with
  | nil =>
    rw [Loopbacks.settleStops]
    have hres := hs.resolveStops done
    obtain ⟨requests, replies, hr⟩ := resolveStops_fields s done
    rw [hr] at hres ⊢
    exact hres.liftBarrier hh
  | cons stop queue ih =>
    rw [Loopbacks.settleStops, hh]
    exact ih (stop.id :: done)

omit [Platform] in
theorem Sound.getPort (hs : Sound s) (renderer : Nat)
    (h : ∀ loopback ∈ s.handles.get? account, isTorn s loopback = false) : Sound (getPort s renderer account) := by
  rw [Loopbacks.getPort]
  split
  · exact hs
  split
  · rename_i loopback hl
    have hcla := (hs.observeRenderer renderer).claim account renderer none
    obtain ⟨consumers, lifetimes, hc⟩ := claim_fields (Loopbacks.observeRenderer s renderer) account renderer none
    rw [hc] at hcla ⊢
    refine ⟨hcla.tables.congr rfl rfl rfl rfl,
      ⟨hcla.lifetimes.claims, hcla.lifetimes.requests, hcla.lifetimes.reaping⟩, ?_, hcla.logs.begun⟩
    intro reply hrep hheld
    rcases mem_append.mp hrep with hrep | hrep
    · exact hs.logs.replies reply hrep hheld
    · rw [mem_singleton.mp hrep]
      exact h loopback hl
  · exact hs

omit [Platform] in
theorem Sound.hookEnds (hs : Sound s) {t : Teardown} (h : s.teardowns.get? account = some t) : Sound { s with
      handles := s.handles.erase account
      teardowns := s.teardowns.set account { t with stage := .stopping } } := by
  refine ⟨⟨fun l lb hl hlive => ?_, fun a l ha => ?_, fun a l ha hn => ?_, fun a u l hu ha => ?_, fun a u hu hst => ?_,
      fun a r hr => ?_⟩,
    ⟨hs.lifetimes.claims, hs.lifetimes.requests, hs.lifetimes.reaping⟩, hs.logs.replies, hs.logs.begun⟩ <;>
    dsimp only at *
  · have hr := hs.tables.running l lb hl hlive
    rw [get?_erase, if_neg, hr]
    intro he
    cases (hs.tables.hooking account t l h (he ▸ hr)).symm.trans ((isTorn_of_getElem? hl).trans hlive)
  · rw [get?_erase] at ha
    split at ha
    · cases ha
    · exact hs.tables.handled a l ha
  · rw [get?_erase] at ha
    split at ha
    · cases ha
    rename_i hne
    rw [get?_set, if_neg hne] at hn
    exact hs.tables.upright a l ha hn
  · rw [get?_erase] at ha
    split at ha
    · cases ha
    rename_i hne
    rw [get?_set, if_neg hne] at hu
    exact hs.tables.hooking a u l hu ha
  · rw [get?_erase]
    split
    · rfl
    rename_i hne
    rw [get?_set, if_neg hne] at hu
    exact hs.tables.stopping a u hu hst
  · obtain ⟨hacc, hh, ht⟩ := hs.tables.flying a r hr
    refine ⟨hacc, ?_, ?_⟩
    · rw [get?_erase]
      split
      · rfl
      · exact hh
    rw [get?_set, if_neg, ht]
    intro he
    cases (he ▸ ht).symm.trans h

omit [Platform] in
theorem Sound.orphaned (hs : Sound s) (orphans : List String) (account : String) (target : VerifiedLoopbackTarget) :
    Sound { s with orphans, loopbacks := s.loopbacks ++ [{ account, target, torn := true }] } := by
  have hold : ∀ (l : Nat) (lb : Loopback), s.loopbacks[l]? = some lb →
      (s.loopbacks ++ [⟨account, target, true⟩])[l]? = some lb := fun l lb hl =>
    (List.getElem?_append_left (List.getElem?_eq_some_iff.mp hl).1).trans hl
  have htorn : ∀ a l, s.handles.get? a = some l →
      isTorn { s with orphans, loopbacks := s.loopbacks ++ [⟨account, target, true⟩] } l = isTorn s l := by
    intro a l ha
    obtain ⟨lb, hlb, -⟩ := hs.tables.handled a l ha
    rw [isTorn_of_getElem? hlb]
    exact isTorn_of_getElem? (hold l lb hlb)
  refine ⟨⟨fun l lb hl hlive => ?_, fun a l ha => ?_, fun a l ha hn => ?_, fun a t l ht ha => ?_, hs.tables.stopping,
      hs.tables.flying⟩,
    ⟨hs.lifetimes.claims, hs.lifetimes.requests, hs.lifetimes.reaping⟩, hs.logs.replies, hs.logs.begun⟩
  · dsimp only at hl
    rw [List.getElem?_append] at hl
    split at hl
    · exact hs.tables.running l lb hl hlive
    have hmem := mem_of_getElem? hl
    rw [mem_singleton.mp hmem] at hlive
    cases hlive
  · obtain ⟨lb, hlb, hacc⟩ := hs.tables.handled a l ha
    exact ⟨lb, hold l lb hlb, hacc⟩
  · exact (htorn a l ha).trans (hs.tables.upright a l ha hn)
  · exact (htorn a l ha).trans (hs.tables.hooking a t l ht ha)

end Starts

theorem sound_opening (vault : Dict String RememberedCredentialRecord) (available : Bool) (logins : List Login) :
    Sound (opening vault available logins) where
  tables := by constructor <;> intros <;> simp_all [opening]
  lifetimes := by constructor <;> intros <;> simp_all [opening]
  logs := by constructor <;> intros <;> simp_all [opening]

section Turns

variable [Platform]

theorem Sound.next {s t : State} {event : Event} (hs : Sound s) (hc : Settled s event) (h : next s event = some t) :
    Sound t := by
  cases event with
  | start renderer args => cases h; exact hs.handleStart renderer args
  | startRemembered renderer args => cases h; exact hs.handleStartRemembered renderer args
  | stop renderer account => cases h; exact hs.releaseLoopbackClaim renderer none
  | releaseAttempt renderer account token =>
    cases h
    split
    · exact hs.releaseLoopbackClaim renderer _
    · exact hs
  | getPort renderer account => cases h; exact hs.getPort renderer hc
  | destroyed renderer => cases h; exact hs.rendererDestroyed renderer
  | stopAll => cases h; exact hs.stopAllLoopbacks
  | removeCredential account =>
    cases h
    refine Sound.removeRememberedCredential ?_ account
    exact ⟨hs.tables.congr rfl rfl rfl rfl, ⟨hs.lifetimes.claims, hs.lifetimes.requests, hs.lifetimes.reaping⟩,
      hs.logs.replies, hs.logs.begun⟩
  | keychain available =>
    cases h
    exact ⟨hs.tables.congr rfl rfl rfl rfl, ⟨hs.lifetimes.claims, hs.lifetimes.requests, hs.lifetimes.reaping⟩,
      hs.logs.replies, hs.logs.begun⟩
  | nativeFinishes account found hook =>
    simp only [Loopbacks.next] at h
    split at h
    · rename_i owner hfli
      obtain ⟨-, ht⟩ := Option.ite_none_right_eq_some.mp h
      cases ht
      exact hs.finishFlight hfli _ hook
    · cases h
  | nativeFails account message =>
    obtain ⟨-, ht⟩ := Option.ite_none_right_eq_some.mp h
    cases ht
    exact hs.failFlight account message
  | nativeTimesOut account =>
    obtain ⟨-, ht⟩ := Option.ite_none_right_eq_some.mp h
    cases ht
    have hfai := hs.failFlight account "loopback startup timed out after 30000ms"
    exact ⟨hfai.tables.congr rfl rfl rfl rfl,
      ⟨hfai.lifetimes.claims, hfai.lifetimes.requests, hfai.lifetimes.reaping⟩, hfai.logs.replies,
      hfai.logs.begun⟩
  | orphanFinishes i found =>
    obtain ⟨account, -, ht⟩ := Option.map_eq_some_iff.mp h
    cases ht
    exact hs.orphaned _ account _
  | hookEnds account =>
    simp only [Loopbacks.next] at h
    split at h
    · rename_i t ht
      obtain ⟨-, hend⟩ := Option.ite_none_right_eq_some.mp h
      cases hend
      exact hs.hookEnds ht
    · cases h
  | nativeStops account =>
    simp only [Loopbacks.next] at h
    split at h
    · rename_i t ht
      obtain ⟨hst, hend⟩ := Option.ite_none_right_eq_some.mp h
      cases hend
      exact hs.settleStops (hs.tables.stopping account t ht hst) _ _
    · cases h
  | barrierExpires i =>
    simp only [Loopbacks.next] at h
    split at h
    · obtain ⟨-, hend⟩ := Option.ite_none_right_eq_some.mp h
      cases hend
      exact (hs.withRequests fun _ hr => mem_of_mem_eraseIdx hr).failStart _
    · cases h
  | reapingExpires i =>
    simp only [Loopbacks.next] at h
    split at h
    · split at h
      · cases h
        exact (hs.withRequests fun _ hr => mem_of_mem_eraseIdx hr).failStart _
      · cases h
      · cases h
    · cases h

/-- While no port is looked up under a teardown, every run keeps one live loopback for an account, answers live ports to
those who hold a claim, and tears down nothing claimed. -/
theorem claims_protect_loopbacks (vault : Dict String RememberedCredentialRecord) (available : Bool)
    (logins : List Login) {s : State} (h : Runs.ReachesUnder next Settled (opening vault available logins) s) :
    Protected s := by
  have hs : Sound s := Runs.invariant_under (fun _ _ _ hs hc ht => Sound.next hs hc ht)
    (sound_opening vault available logins) h
  exact hs.tables.protects hs.logs

end Turns

instance (s : State) (event : Event) : Decidable (Settled s event) :=
  match event with
  | .getPort _ account => inferInstanceAs (Decidable (∀ loopback ∈ s.handles.get? account, _ = false))
  | .start _ _ | .startRemembered _ _ | .stop _ _ | .releaseAttempt _ _ _ | .destroyed _ | .stopAll
  | .removeCredential _ | .keychain _ | .nativeFinishes _ _ _ | .nativeFails _ _ | .nativeTimesOut _
  | .orphanFinishes _ _ | .hookEnds _ | .nativeStops _ | .barrierExpires _ | .reapingExpires _ =>
    inferInstanceAs (Decidable True)

section Ascii

theorem trim_trim (value : String) : trim (trim value) = trim value := by
  have hsta : ∀ l : List Char,
      ((l.dropWhile isBlank).rdropWhile isBlank).dropWhile isBlank = (l.dropWhile isBlank).rdropWhile isBlank := by
    intro l
    rw [dropWhile_eq_self_iff]
    intro hpos hbla
    have hpre := rdropWhile_prefix isBlank (l.dropWhile isBlank)
    have hlong := lt_of_lt_of_le hpos hpre.length_le
    have hhead := hpre.getElem hpos
    have hkeep := dropWhile_get_zero_not isBlank l hlong
    simp only [get_eq_getElem] at hbla hkeep
    exact hkeep (hhead ▸ hbla)
  have htrim : ∀ v : String, trim v = String.ofList ((v.toList.dropWhile isBlank).rdropWhile isBlank) := fun _ => rfl
  rw [htrim (trim value), htrim value, String.toList_ofList, hsta, rdropWhile_idempotent]

theorem capital_forall {P : Char → Prop} (h : ∀ n < 26, P (Char.ofNat (65 + n))) {c : Char}
    (hc : 'A' ≤ c ∧ c ≤ 'Z') : P c := by
  have hle : 65 ≤ c.toNat ∧ c.toNat ≤ 90 := hc
  have hn := h (c.toNat - 65) (by omega)
  rwa [Nat.add_sub_cancel' hle.1, Char.ofNat_toNat] at hn

theorem lowerChar_forall {P : Char → Char → Prop} (hcap : ∀ n < 26, P (Char.ofNat (65 + n)) (Char.ofNat (97 + n)))
    (hkel : P (Char.ofNat 0x212a) 'k') (c : Char)
    (hoth : lowerChar c = c → P c c) : P c (lowerChar c) := by
  by_cases hc : 'A' ≤ c ∧ c ≤ 'Z'
  · refine capital_forall (P := fun c => P c (lowerChar c)) (fun n hn => ?_) hc
    have hlow : ∀ n < 26, lowerChar (Char.ofNat (65 + n)) = Char.ofNat (97 + n) := by decide
    exact hlow n hn ▸ hcap n hn
  by_cases hk : c.toNat = 0x212a
  · have he : c = Char.ofNat 0x212a := by rw [← hk, Char.ofNat_toNat]
    rw [he]
    exact hkel
  have hsame : lowerChar c = c := by rw [lowerChar, if_neg hc, if_neg hk]
  rw [hsame]
  exact hoth hsame

theorem isBlank_lowerChar (c : Char) : isBlank (lowerChar c) = isBlank c :=
  lowerChar_forall (P := fun c d => isBlank d = isBlank c) (by decide) (by decide) c fun _ => rfl

theorem lowerChar_lowerChar (c : Char) : lowerChar (lowerChar c) = lowerChar c :=
  lowerChar_forall (P := fun _ d => lowerChar d = d) (by decide) (by decide) c id

theorem trim_lower (value : String) : trim (lower value) = lower (trim value) := by
  have hbla : isBlank ∘ lowerChar = isBlank := funext isBlank_lowerChar
  rw [trim, lower, lower, trim, String.toList_ofList, String.toList_ofList, dropWhile_map, hbla,
    ← map_reverse, dropWhile_map, hbla, map_reverse]

abbrev ascii : Platform where
  toLowerCase := lower
  toLowerCase_trim value := by
    rw [trim_lower, trim_trim, lower, lower, String.toList_ofList, List.map_map]
    exact congrArg _ (List.map_congr_left fun c _ => lowerChar_lowerChar c)

end Ascii

def home : VerifiedLoopbackTarget := ⟨"home", "net-1", "ada", "node-c", "agent", "node-a"⟩

def adaStarts : StartArgs :=
  { accountId := "acc", password := "secret", handle := some "ada", network := some "home" }

def takenRun : List Event :=
  [.start 1 adaStarts, .nativeFinishes "acc" home none, .getPort 2 "acc", .stop 1 "acc", .destroyed 2,
    .start 3 adaStarts, .hookEnds "acc", .nativeStops "acc", .nativeFinishes "acc" home none]

theorem taken_run_protected : ∃ s, Runs.run (@next ascii) (opening .empty true []) takenRun = some s ∧
    s.replies.map Reply.loopback = [0, 0, 1] ∧ s.begun.map Begun.loopback = [0] ∧ Protected s := by
  have hrun : (Runs.run (@next ascii) (opening .empty true []) takenRun).map
      (fun s => (s.replies.map Reply.loopback, s.begun.map Begun.loopback)) = some ([0, 0, 1], [0]) := by
    decide +kernel
  obtain ⟨s, hs, hend⟩ := Option.map_eq_some_iff.mp hrun
  obtain ⟨hrep, hbeg⟩ := Prod.mk.inj hend
  have hall : Runs.all (fun s e => decide (Settled s e)) (@next ascii) (opening .empty true []) takenRun = true := by
    decide +kernel
  exact ⟨s, hs, hrep, hbeg, @claims_protect_loopbacks ascii .empty true [] s (Runs.reachesUnder_of_all hall hs)⟩

def lookedUpLate : List Event :=
  [.start 1 adaStarts, .nativeFinishes "acc" home none, .stop 1 "acc", .getPort 2 "acc"]

theorem late_lookup_answers_torn_port :
    ¬ ∀ es s, Runs.run (@next ascii) (opening .empty true []) es = some s → Protected s := by
  intro hall
  have hrun : (Runs.run (@next ascii) (opening .empty true []) lookedUpLate).map
      (fun s => s.replies.map fun r => (r.claimed, r.torn)) = some [(true, false), (true, true)] := by decide +kernel
  obtain ⟨s, hs, hend⟩ := Option.map_eq_some_iff.mp hrun
  have hmem : (true, true) ∈ s.replies.map fun r => (r.claimed, r.torn) := by simp [hend]
  obtain ⟨r, hr, hpair⟩ := mem_map.mp hmem
  obtain ⟨hcla, htorn⟩ := Prod.mk.inj hpair
  cases ((hall _ s hs).answered r hr hcla).symm.trans htorn

end OpenAgent.Desktop.Loopbacks
