import Mathlib.Data.Nat.Find
import Matchmaker.Proofs.Service.Reception

/-!
# Kept and live chat status

The chat status of a player is kept in the profile, and the registered session has its own.  The
profile has the status that the last change gave it.  The session has the status of the notice about
its player that was done last (`Sound`).  So when nothing is on its way, the two differ if and only
if that notice was overtaken (`agree_iff`): a change to another status was at the profiles after it
and was done before it.
-/

namespace Matchmaker

open Chat (Log)

/-- comes of a change, and not of a lookup -/
def Notice.isChange : Notice → Bool
  | enter _ _ => false
  | tell _ _ _ => true

/-- everyone who is known is known as before -/
def ProfileTable.Grows (t u : ProfileTable) : Prop := ∀ p f, t.get? p = some f → u.get? p = some f

namespace ProfileTable
variable {t u : ProfileTable}

theorem grows_profile (t : ProfileTable) (p : SteamId) : t.Grows (t.profile p).2 := by
  intro q f hf
  rw [get?_profile]
  by_cases hq : p = q
  · rw [if_pos hq, profile_of_some (hq ▸ hf)]
  · rw [if_neg hq, hf]

theorem grows_survivesLookups : Service.SurvivesLookups Grows where
  refl _ _ _ h := h
  trans h h' p f hf := h' p f (h p f hf)
  lookup := by
    intro t u p f h
    change Except.ok (t.profile p) = _ at h
    have hu : (t.profile p).2 = u := congrArg Prod.snd (Except.ok.inj h)
    exact hu ▸ grows_profile t p

end ProfileTable

open ProfileTable (Grows grows_survivesLookups)

/-! ## parts of rulings -/

namespace Ruling
variable {ruling : Ruling} {stage : Stage} {s t : Service.InMemory ProfileTable}

theorem looks_hear (r : Ruling) :
    Service.Looks (r.hear : Serving (WithOutages Log) ProfileTable Profile) := by
  unfold hear
  refine Service.comes_unless fun _ => ?_
  refine Service.comes_bind (Service.looks_caller _) fun actor => ?_
  exact Service.comes_when fun _ => Service.looks_pure actor

theorem looks_weigh (r : Ruling) (actor target : Profile) :
    Service.Looks (r.weigh actor target : Serving (WithOutages Log) ProfileTable Unit) := by
  unfold weigh
  refine Service.comes_bind (Service.looks_authorize _ _) fun _ => ?_
  split
  · exact Service.looks_throw _
  · exact Service.looks_pure ()

theorem keeps_hear (r : Ruling) :
    Service.Keeps Grows (r.hear : Serving (WithOutages Log) ProfileTable Profile) := by
  have h := grows_survivesLookups
  unfold hear
  refine Service.keeps_unless h ?_
  refine Service.keeps_bind h (Service.keeps_caller h _) fun actor => ?_
  exact Service.keeps_when h (Service.keeps_pure h actor)

theorem keeps_weigh (r : Ruling) (actor target : Profile) :
    Service.Keeps Grows (r.weigh actor target : Serving (WithOutages Log) ProfileTable Unit) := by
  have h := grows_survivesLookups
  unfold weigh
  refine Service.keeps_bind h (Service.keeps_authorize h _ _) fun _ => ?_
  split
  · exact Service.keeps_throw h _
  · exact Service.keeps_pure h ()

/-- the last part is to come -/
def Stage.isGranted : Stage → Bool
  | granted _ => true
  | _ => false

theorem part_comes (ruling : Ruling) (hstage : stage.isGranted = false) :
    Service.Comes (ruling.part stage : Serving (WithOutages Log) ProfileTable _) fun a d =>
      a.2 = [] ∧ d = .nothing := by
  have hpure : ∀ after : Stage, Service.Comes
      (pure (after, []) : Serving (WithOutages Log) ProfileTable (Stage × List Notice)) fun a d =>
        a.2 = [] ∧ d = .nothing := fun after =>
    (Service.comes_pure _).imp fun a d h => ⟨congrArg Prod.snd h.1, h.2⟩
  cases stage with
  | asked => exact Service.comes_bind ruling.looks_hear fun actor => hpure _
  | heard actor => exact Service.comes_bind (Service.looks_onProfiles _) fun target => hpure _
  | found actor target => exact Service.comes_bind (ruling.looks_weigh _ _) fun _ => hpure _
  | granted target => cases hstage
  | ended result => exact hpure _

theorem part_keeps (ruling : Ruling) (hstage : stage.isGranted = false) :
    Service.Keeps Grows (ruling.part stage : Serving (WithOutages Log) ProfileTable _) := by
  have h := grows_survivesLookups
  cases stage with
  | asked => exact Service.keeps_bind h ruling.keeps_hear fun actor => Service.keeps_pure h _
  | heard actor =>
    exact Service.keeps_bind h (Service.keeps_lookup h _) fun target => Service.keeps_pure h _
  | found actor target =>
    exact Service.keeps_bind h (ruling.keeps_weigh _ _) fun _ => Service.keeps_pure h _
  | granted target => cases hstage
  | ended result => exact Service.keeps_pure h _

end Ruling

namespace Reception
variable {owner : Nat → Profile} {r u : Reception} {e : Event} {x y : Notice} {i j : Nat}
  {p : SteamId}

/-! ## one event -/

/-- what an event makes of profiles, notices and sessions -/
inductive Shift (r u : Reception) : Prop where
  /-- somebody was at the profiles, and a notice comes of it -/
  | learns (x : Notice) (hnotices : u.notices = r.notices ++ [x]) (hdone : u.done = r.done)
      (hknown : ∃ f, u.profiles.get? x.player = some f ∧ f.chatStatus = x.status)
      (hothers : ∀ p f, r.profiles.get? p = some f → (x.isChange = true → p ≠ x.player) →
        u.profiles.get? p = some f)
      (hclients : u.coordinator.clients = r.coordinator.clients)
  | tells (i : Nat) (x : Notice) (hx : r.notices[i]? = some x) (hnotices : u.notices = r.notices)
      (hdone : u.done = r.done ++ [i]) (hprofiles : u.profiles = r.profiles)
      (hclients : ∀ e ∈ u.coordinator.clients, (e ∈ r.coordinator.clients ∧ e.steamId ≠ x.player) ∨
        (e.steamId = x.player ∧ e.chatStatus = x.status))
  | rests (hnotices : u.notices = r.notices) (hdone : u.done = r.done)
      (hprofiles : r.profiles.Grows u.profiles)
      (hclients : ∀ e ∈ u.coordinator.clients, e ∈ r.coordinator.clients)

theorem shift_same (r : Reception) : Shift r r :=
  .rests rfl rfl (fun _ _ h => h) fun _ h => h

theorem shift_arrive (owner : Nat → Profile) (r : Reception) (n : Nat) :
    Shift r (r.next owner (.arrive n)) := by
  have hplayer := r.profiles.steamId_profile (owner n).steamId
  refine .learns (.enter n (r.profiles.profile (owner n).steamId).1) rfl rfl ?_ ?_ rfl
  · refine ⟨(r.profiles.profile (owner n).steamId).1, ?_, rfl⟩
    show (r.profiles.profile (owner n).steamId).2.get?
      (r.profiles.profile (owner n).steamId).1.steamId = _
    rw [hplayer, ProfileTable.get?_profile, if_pos rfl]
  · exact fun q f hf _ => r.profiles.grows_profile (owner n).steamId q f hf

theorem mem_clients_of_nothing {s t : Service.InMemory ProfileTable}
    (h : Service.Does s .nothing t) : ∀ e ∈ t.coordinator.clients, e ∈ s.coordinator.clients := by
  rw [(Service.does_nothing_iff.1 h).2.1]
  exact fun _ he => he

theorem shift_looked (r : Reception) (k : Nat) (ruling : Ruling) {stage : Ruling.Stage}
    (hstage : stage.isGranted = false) : Shift r (r.advanced k ruling stage) := by
  have hcomes := ruling.part_comes hstage r.service
  have hkeeps := ruling.part_keeps hstage r.service
  unfold Service.after at hkeeps
  unfold advanced
  cases hrun : (ruling.part stage).run r.service with
  | mk result t =>
    rw [hrun] at hcomes hkeeps
    cases result with
    | error e => exact .rests rfl rfl hkeeps (mem_clients_of_nothing hcomes)
    | ok a =>
      obtain ⟨d, ⟨hnone, rfl⟩, hdoes⟩ := hcomes
      refine .rests ?_ rfl hkeeps (mem_clients_of_nothing hdoes)
      show r.notices ++ a.2 = r.notices
      rw [hnone, List.append_nil]

theorem shift_kept (r : Reception) (k : Nat) (ruling : Ruling) (target : Profile) :
    Shift r (r.advanced k ruling (.granted target)) := by
  have hpart : (ruling.part (.granted target)).run r.service = _ :=
    ruling.run_keep_bind target _ r.service
  cases hcall : ProfileProvider.setChatStatus r.service.profiles target.steamId ruling.status with
  | error e =>
    rw [hcall] at hpart
    rw [advanced_of_error hpart]
    exact .rests rfl rfl (fun _ _ h => h) fun _ h => h
  | ok x =>
    obtain ⟨⟨⟩, profiles⟩ := x
    rw [hcall] at hpart
    rw [advanced_of_ok hpart]
    obtain ⟨f, -, hget⟩ :=
      ProfileTable.get?_setChatStatus (ProfileTable.setChatStatus?_of_ok hcall)
    refine .learns (ruling.notice target) rfl rfl ?_ (fun q g hg hne => ?_) rfl
    · exact ⟨{ f with chatStatus := ruling.status }, (hget _).trans (if_pos rfl), rfl⟩
    · exact (hget q).trans ((if_neg (Ne.symm (hne rfl))).trans hg)

theorem shift_advanced (r : Reception) (k : Nat) (ruling : Ruling) (stage : Ruling.Stage) :
    Shift r (r.advanced k ruling stage) := by
  cases stage with
  | granted target => exact shift_kept r k ruling target
  | _ => exact shift_looked r k ruling rfl

theorem shift_finished (hx : r.notices[i]? = some x) : Shift r (r.finished i x) := by
  refine .tells i x hx rfl rfl rfl fun e he => ?_
  cases x with
  | enter n f =>
    rcases Ascending.mem_insert.1 he with rfl | ⟨he, hkey⟩
    · exact .inr ⟨rfl, rfl⟩
    · exact .inl ⟨he, fun hsame => hkey (congrArg SteamId.toNat hsame)⟩
  | tell p status reason =>
    rcases Coordinator.mem_clients_updateChatStatus he with hother | ⟨d, hd, hplayer, rfl⟩
    · exact .inl hother
    · exact .inr ⟨hplayer, rfl⟩

theorem shift_act (owner : Nat → Profile) (r : Reception) (a : Action) :
    Shift r (r.next owner (.act a)) := by
  have hhouse : (r.next owner (.act a)).house = if a.givesStatus then r.house
      else { r.house.stepped (r.house.world.outcome owner a) with
        passes := r.house.world.passesAfter a } := rfl
  have hprofiles : (r.next owner (.act a)).profiles = r.profiles := by
    show (r.next owner (.act a)).house.service.profiles = _
    rw [hhouse]
    split <;> rfl
  refine .rests rfl rfl (fun p f hf => by rw [hprofiles]; exact hf) fun e he => ?_
  change e ∈ (r.next owner (.act a)).house.service.coordinator.clients at he
  rw [hhouse] at he
  cases ha : a.givesStatus with
  | true => rwa [ha] at he
  | false =>
    rw [ha] at he
    change e ∈ (r.house.world.outcome owner a).state.clients at he
    cases World.origin_of_mem he with
    | stays _ he hconnect hstatus => exact he
    | comes n status he => cases ha
    | changes d hd status reason he => cases ha

theorem shift_next (owner : Nat → Profile) (r : Reception) (e : Event) :
    Shift r (r.next owner e) := by
  cases e with
  | arrive n => exact shift_arrive owner r n
  | ask ruling => exact .rests rfl rfl (fun _ _ h => h) fun _ h => h
  | advance k =>
    cases hk : r.rulings[k]? with
    | none =>
      rw [next_advance_of_none owner hk]
      exact shift_same r
    | some x =>
      rw [next_advance owner hk]
      exact shift_advanced r k x.1 x.2
  | finish i =>
    cases hi : r.notices[i]? with
    | none =>
      rw [next_finish_of_none owner hi]
      exact shift_same r
    | some x =>
      by_cases hdone : i ∈ r.done
      · rw [next_finish_of_done owner hdone]
        exact shift_same r
      · rw [next_finish owner hi hdone]
        exact shift_finished hi
  | act a => exact shift_act owner r a

/-! ## the last about a player -/

/-- the notice with this number is about a player -/
def isAbout (r : Reception) (p : SteamId) (i : Nat) : Bool :=
  r.notices[i]?.any fun x => x.player == p

/-- the notice about a player that was done last -/
def last? (r : Reception) (p : SteamId) : Option Nat := (r.done.filter (r.isAbout p)).getLast?

/-- the notice with this number comes of a change of the player's status -/
def Changes (r : Reception) (p : SteamId) (j : Nat) : Prop :=
  ∃ x, r.notices[j]? = some x ∧ x.isChange = true ∧ x.player = p

theorem isAbout_iff : r.isAbout p i = true ↔ ∃ x, r.notices[i]? = some x ∧ x.player = p := by
  unfold isAbout
  cases r.notices[i]? with
  | none => simp
  | some x => simp

theorem Changes.lt (h : r.Changes p j) : j < r.notices.length := by
  obtain ⟨x, hx, -⟩ := h
  exact (List.getElem?_eq_some_iff.1 hx).1

theorem Changes.le (h : r.Changes p j) : j ≤ r.notices.length := Nat.le_of_lt h.lt

theorem Changes.isAbout (h : r.Changes p j) : r.isAbout p j = true := by
  obtain ⟨x, hx, -, hp⟩ := h
  exact isAbout_iff.2 ⟨x, hx, hp⟩

theorem exists_last_change (h : ∃ j, i < j ∧ r.Changes p j) :
    ∃ j, i < j ∧ r.Changes p j ∧ ∀ k, j < k → ¬ r.Changes p k := by
  classical
  obtain ⟨j, hij, hj⟩ := h
  have hle : j ≤ Nat.findGreatest (r.Changes p) r.notices.length :=
    Nat.le_findGreatest hj.le hj
  refine ⟨Nat.findGreatest (r.Changes p) r.notices.length, Nat.lt_of_lt_of_le hij hle,
    Nat.findGreatest_spec hj.le hj, fun k hk hchange => ?_⟩
  exact Nat.findGreatest_is_greatest hk hchange.le hchange

/-! ## every run -/

/-- the profile shows the last change, and the session the notice that was done last -/
structure Sound (r : Reception) : Prop where
  kept : ∀ i x, r.notices[i]? = some x → (∀ j, i < j → ¬ r.Changes x.player j) →
    ∃ f, r.profiles.get? x.player = some f ∧ f.chatStatus = x.status
  live : ∀ e ∈ r.coordinator.clients, ∃ i x, r.last? e.steamId = some i ∧
    r.notices[i]? = some x ∧ x.player = e.steamId ∧ x.status = e.chatStatus
  bounded : ∀ i ∈ r.done, i < r.notices.length

theorem getElem?_learned (hnotices : u.notices = r.notices ++ [x]) (hi : r.notices[i]? = some y) :
    u.notices[i]? = some y := by
  rw [hnotices, List.getElem?_append_left (List.getElem?_eq_some_iff.1 hi).1, hi]

theorem last?_learned (hnotices : u.notices = r.notices ++ [x]) (hdone : u.done = r.done)
    (hbounded : ∀ i ∈ r.done, i < r.notices.length) (p : SteamId) : u.last? p = r.last? p := by
  unfold last?
  rw [hdone]
  refine congrArg List.getLast? (List.filter_congr fun i hi => ?_)
  unfold isAbout
  rw [hnotices, List.getElem?_append_left (hbounded i hi)]

theorem last?_told (hx : r.notices[i]? = some x) (hnotices : u.notices = r.notices)
    (hdone : u.done = r.done ++ [i]) (p : SteamId) :
    u.last? p = if x.player = p then some i else r.last? p := by
  have habout : u.isAbout p = r.isAbout p := by
    unfold isAbout
    rw [hnotices]
  have hi : r.isAbout p i = (x.player == p) := by
    unfold isAbout
    rw [hx]
    rfl
  unfold last?
  rw [hdone, habout, List.filter_append]
  by_cases hp : x.player = p
  · have hsingle : [i].filter (r.isAbout p) = [i] :=
      List.filter_cons_of_pos (hi.trans (beq_iff_eq.2 hp))
    rw [if_pos hp, hsingle, List.getLast?_concat]
  · have hsingle : [i].filter (r.isAbout p) = [] := by
      refine List.filter_cons_of_neg ?_
      rw [hi]
      exact mt beq_iff_eq.1 hp
    rw [if_neg hp, hsingle, List.append_nil]

theorem Sound.rests (h : r.Sound) (hnotices : u.notices = r.notices) (hdone : u.done = r.done)
    (hprofiles : r.profiles.Grows u.profiles)
    (hclients : ∀ e ∈ u.coordinator.clients, e ∈ r.coordinator.clients) : u.Sound where
  kept i x hx hlast := by
    unfold Changes at hlast
    rw [hnotices] at hx hlast
    obtain ⟨f, hf, hstatus⟩ := h.kept i x hx hlast
    exact ⟨f, hprofiles _ f hf, hstatus⟩
  live e he := by
    have hsame : u.last? e.steamId = r.last? e.steamId := by
      unfold last? isAbout
      rw [hnotices, hdone]
    rw [hsame, hnotices]
    exact h.live e (hclients e he)
  bounded := by
    rw [hdone, hnotices]
    exact h.bounded

theorem Sound.tells (h : r.Sound) (hx : r.notices[i]? = some x) (hnotices : u.notices = r.notices)
    (hdone : u.done = r.done ++ [i]) (hprofiles : u.profiles = r.profiles)
    (hclients : ∀ e ∈ u.coordinator.clients, (e ∈ r.coordinator.clients ∧ e.steamId ≠ x.player) ∨
      (e.steamId = x.player ∧ e.chatStatus = x.status)) : u.Sound where
  kept j y hy hlast := by
    unfold Changes at hlast
    rw [hnotices] at hy hlast
    rw [hprofiles]
    exact h.kept j y hy hlast
  live e he := by
    rw [last?_told hx hnotices hdone, hnotices]
    rcases hclients e he with ⟨he, hne⟩ | ⟨hplayer, hstatus⟩
    · rw [if_neg (Ne.symm hne)]
      exact h.live e he
    · rw [if_pos hplayer.symm]
      exact ⟨i, x, rfl, hx, hplayer.symm, hstatus.symm⟩
  bounded j hj := by
    rw [hnotices]
    rw [hdone] at hj
    rcases List.mem_append.1 hj with hj | hj
    · exact h.bounded j hj
    · rw [List.mem_singleton.1 hj]
      exact (List.getElem?_eq_some_iff.1 hx).1

theorem Sound.learns (h : r.Sound) (hnotices : u.notices = r.notices ++ [x])
    (hdone : u.done = r.done)
    (hknown : ∃ f, u.profiles.get? x.player = some f ∧ f.chatStatus = x.status)
    (hothers : ∀ p f, r.profiles.get? p = some f → (x.isChange = true → p ≠ x.player) →
      u.profiles.get? p = some f)
    (hclients : u.coordinator.clients = r.coordinator.clients) : u.Sound where
  kept i y hy hlast := by
    have hnew : u.notices[r.notices.length]? = some x := by
      rw [hnotices]
      exact List.getElem?_concat_length
    rcases Nat.lt_or_ge i r.notices.length with hi | hi
    · -- an older notice, which the new one does not make out of date
      have hold : r.notices[i]? = some y := by
        rwa [hnotices, List.getElem?_append_left hi] at hy
      obtain ⟨f, hf, hstatus⟩ := h.kept i y hold fun j hij ⟨z, hz, hchange⟩ =>
        hlast j hij ⟨z, getElem?_learned hnotices hz, hchange⟩
      refine ⟨f, hothers _ f hf fun hchange hplayer => ?_, hstatus⟩
      exact hlast _ hi ⟨x, hnew, hchange, hplayer.symm⟩
    · -- the new notice
      have hlt := (List.getElem?_eq_some_iff.1 hy).1
      rw [hnotices, List.length_append, List.length_singleton] at hlt
      obtain rfl : i = r.notices.length := by omega
      rw [hnew] at hy
      cases hy
      exact hknown
  live e he := by
    rw [hclients] at he
    obtain ⟨i, y, hi, hy, hplayer, hstatus⟩ := h.live e he
    rw [last?_learned hnotices hdone h.bounded]
    exact ⟨i, y, hi, getElem?_learned hnotices hy, hplayer, hstatus⟩
  bounded i hi := by
    rw [hdone] at hi
    rw [hnotices, List.length_append]
    exact Nat.lt_add_right _ (h.bounded i hi)

theorem Sound.next (h : r.Sound) (owner : Nat → Profile) (e : Event) : (r.next owner e).Sound := by
  cases shift_next owner r e with
  | rests hnotices hdone hprofiles hclients => exact h.rests hnotices hdone hprofiles hclients
  | tells i x hx hnotices hdone hprofiles hclients =>
    exact h.tells hx hnotices hdone hprofiles hclients
  | learns x hnotices hdone hknown hothers hclients =>
    exact h.learns hnotices hdone hknown hothers hclients

theorem sound_run (config : Config) (store : WithOutages Log) (profiles : ProfileTable)
    (policy : Moderation.Policy) (owner : Nat → Profile) (events : List Event) :
    ((opened config store profiles policy).run owner events).Sound := by
  refine run_induction (fun _ e h => h.next owner e) ⟨?_, ?_, ?_⟩ events
  · exact fun i x hx => by cases hx
  · exact fun e he => absurd he (Ascending.not_mem_empty e)
  · exact fun i hi => absurd hi List.not_mem_nil

/-- What was done last about a player was overtaken: a change to another status was at the profiles
after it, was the last to be there, and was done before it. -/
def Overtaken (r : Reception) (p : SteamId) : Prop :=
  ∃ i j x y, r.last? p = some i ∧ r.notices[i]? = some x ∧ r.notices[j]? = some y ∧
    r.Changes p j ∧ (∀ k, j < k → ¬ r.Changes p k) ∧ i < j ∧ [j, i].Sublist r.done ∧
    x.status ≠ y.status

theorem Sound.kept_of_change (h : r.Sound) (hy : r.notices[j]? = some y) (hj : r.Changes p j)
    (hlast : ∀ k, j < k → ¬ r.Changes p k) :
    ∃ f, r.profiles.get? p = some f ∧ f.chatStatus = y.status := by
  obtain ⟨z, hz, -, rfl⟩ := hj
  rw [hy] at hz
  cases hz
  exact h.kept j y hy hlast

/-- What was done before the last one was done before it. -/
theorem sublist_of_last? (hi : r.last? p = some i) (hj : j ∈ r.done) (habout : r.isAbout p j = true)
    (hne : j ≠ i) : [j, i].Sublist r.done := by
  obtain ⟨others, hothers⟩ := List.getLast?_eq_some_iff.1 hi
  have hmem : j ∈ others := by
    have hboth : j ∈ others ++ [i] := hothers ▸ List.mem_filter.2 ⟨hj, habout⟩
    rcases List.mem_append.1 hboth with hmem | hlast
    · exact hmem
    · exact absurd (List.mem_singleton.1 hlast) hne
  have hpair : [j, i].Sublist (others ++ [i]) :=
    (List.singleton_sublist.2 hmem).append (List.Sublist.refl [i])
  rw [← hothers] at hpair
  exact hpair.trans List.filter_sublist

/-- **The kept and the live status of a player differ if and only if a change was overtaken.**  When
nobody is between the profiles and the coordinator and no ruling is on its way, every player who is
connected has a profile, and the session has the status of the profile unless what was done last
about the player was overtaken by the last change of the profile. -/
theorem agree_iff (config : Config) (store : WithOutages Log) (profiles : ProfileTable)
    (policy : Moderation.Policy) (owner : Nat → Profile) (events : List Event)
    (hquiet : ((opened config store profiles policy).run owner events).Quiet) :
    let r := (opened config store profiles policy).run owner events
    ∀ e ∈ r.coordinator.clients, ∃ f, r.profiles.get? e.steamId = some f ∧
      (e.chatStatus = f.chatStatus ↔ ¬ r.Overtaken e.steamId) := by
  intro r e he
  have hsound : r.Sound := sound_run config store profiles policy owner events
  obtain ⟨i, x, hi, hx, hplayer, hstatus⟩ := hsound.live e he
  by_cases hchange : ∃ j, i < j ∧ r.Changes e.steamId j
  · -- the last change decides what is kept
    obtain ⟨j, hij, hj, hlast⟩ := exists_last_change hchange
    obtain ⟨y, hy⟩ : ∃ y, r.notices[j]? = some y := ⟨_, List.getElem?_eq_getElem hj.lt⟩
    obtain ⟨f, hf, hkept⟩ := hsound.kept_of_change hy hj hlast
    refine ⟨f, hf, ?_⟩
    rw [← hstatus, hkept]
    constructor
    · rintro hsame ⟨i', j', x', y', hi', hx', hy', hj', hlast', -, -, hne⟩
      obtain ⟨g, hg, hkept'⟩ := hsound.kept_of_change hy' hj' hlast'
      rw [hi] at hi'
      cases hi'
      rw [hx] at hx'
      cases hx'
      rw [hf] at hg
      cases hg
      exact hne (hsame.trans (hkept.symm.trans hkept'))
    · intro hnot
      by_contra hne
      have hpair : [j, i].Sublist r.done :=
        sublist_of_last? hi (hquiet.2 j hj.lt) hj.isAbout (Nat.ne_of_gt hij)
      exact hnot ⟨i, j, x, y, hi, hx, hy, hj, hlast, hij, hpair, hne⟩
  · -- nothing has changed since
    obtain ⟨f, hf, hkept⟩ := hsound.kept i x hx fun j hij hj => hchange ⟨j, hij, hplayer ▸ hj⟩
    rw [hplayer] at hf
    refine ⟨f, hf, ?_⟩
    rw [← hstatus, hkept]
    refine iff_of_true rfl ?_
    rintro ⟨i', j, x', y, hi', -, -, hj, -, hij, -⟩
    rw [hi] at hi'
    cases hi'
    exact hchange ⟨j, hij, hj⟩

end Reception

/-! ## a player who is muted while connecting

The player is looked up, the mute is kept and finds nobody to tell, and then the session is
registered with the status of before. -/

namespace Sample

def hush : Ruling := ⟨moderator.steamId, (guest 0).steamId, .readonly, "spam"⟩

def overlooked : List Reception.Event :=
  [.arrive 0, .ask hush, .advance 0, .advance 0, .advance 0, .advance 0, .finish 1, .finish 0]

def reception : Reception := .opened {} ⟨.empty, []⟩ staff Moderation.byLevel

theorem quiet_overlooked : (reception.run guest overlooked).Quiet := by
  have hrulings : (reception.run guest overlooked).rulings = [(hush, .ended (.ok ()))] := by
    decide +kernel
  have hnotices : (reception.run guest overlooked).notices.length = 2 := by decide +kernel
  have hdone : (reception.run guest overlooked).done = [1, 0] := by decide +kernel
  refine ⟨fun x hx => ?_, ?_⟩
  · rw [hrulings] at hx
    exact ⟨.ok (), List.mem_singleton.1 hx ▸ rfl⟩
  · rw [hnotices, hdone]
    decide

theorem clients_overlooked :
    (reception.run guest overlooked).coordinator.clients.toList = [⟨0, guest 0, .readwrite⟩] := by
  decide +kernel

theorem kept_overlooked : (reception.run guest overlooked).profiles.get? (guest 0).steamId =
    some { guest 0 with chatStatus := .readonly } := by
  decide +kernel

end Sample

namespace Reception

theorem agree_iff_sample :
    (Sample.reception.run Sample.guest Sample.overlooked).Overtaken (Sample.guest 0).steamId := by
  obtain ⟨f, hf, hagree⟩ := agree_iff {} ⟨.empty, []⟩ Sample.staff Moderation.byLevel Sample.guest
    Sample.overlooked Sample.quiet_overlooked ⟨0, Sample.guest 0, .readwrite⟩
    (by rw [Ascending.mem_def]; exact Sample.clients_overlooked ▸ List.mem_singleton.2 rfl)
  have hsome := hf.symm.trans Sample.kept_overlooked
  cases hsome
  by_contra hnot
  have hsame := hagree.2 hnot
  cases hsame

/-- Kept and live status may differ when nothing is on its way any more. -/
theorem muted_player_enters :
    ¬ ∀ (config : Config) (store : WithOutages Log) (profiles : ProfileTable)
      (policy : Moderation.Policy) (owner : Nat → Profile) (events : List Event),
      let r := (opened config store profiles policy).run owner events
      r.Quiet → ∀ e ∈ r.coordinator.clients,
        (r.profiles.get? e.steamId).map Profile.chatStatus = some e.chatStatus := by
  intro hclaim
  have hsame := hclaim {} ⟨.empty, []⟩ Sample.staff Moderation.byLevel Sample.guest
    Sample.overlooked Sample.quiet_overlooked ⟨0, Sample.guest 0, .readwrite⟩
    (by rw [Ascending.mem_def]; exact Sample.clients_overlooked ▸ List.mem_singleton.2 rfl)
  have hkept := congrArg (Option.map Profile.chatStatus) Sample.kept_overlooked
  have hdiffer := hkept.symm.trans hsame
  cases hdiffer

end Reception

end Matchmaker
