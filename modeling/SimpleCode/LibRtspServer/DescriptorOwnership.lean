import Mathlib.Data.List.Nodup
import SimpleCode.LibRtspServer.Descriptors

set_option autoImplicit false

namespace SimpleCode.LibRtspServer.Descriptors

open Foundations

instance {p : MediaType → Prop} [DecidablePred p] : Decidable (∀ m, p m) :=
  decidable_of_iff (p .video ∧ p .audio) ⟨fun h m => m.rec h.1 h.2, fun h => ⟨h _, h _⟩⟩

instance {p : MediaType → Prop} [DecidablePred p] : Decidable (∃ m, p m) :=
  decidable_of_iff (p .video ∨ p .audio)
    ⟨fun h => h.elim (⟨_, ·⟩) (⟨_, ·⟩), fun ⟨m, h⟩ => by cases m <;> simp [h]⟩

lemma eraseP_key {α β : Type*} [DecidableEq β] (f : α → β) {l : List α} (h : (l.map f).Nodup) (b : β) :
    l.eraseP (f · == b) = l.filter (f · ≠ b) := by
  induction l with
  | nil => rfl
  | cons a l ih =>
    obtain ⟨hnot, hl⟩ := List.nodup_cons.mp h
    by_cases hab : f a = b
    · have hall : l.filter (f · ≠ b) = l := by
        apply List.filter_eq_self.mpr
        intro x hx
        have hne : f x ≠ b := fun hxb => hnot (hab.trans hxb.symm ▸ List.mem_map_of_mem hx)
        simp [hne]
      rw [List.eraseP_cons_of_pos (by simp [hab]), List.filter_cons_of_neg (by simp [hab]), hall]
    · simp [hab, ih hl]

namespace Server

section Properties

variable (srv : Server) (s : Sess)

/-- The descriptor is open, and was opened for the session. -/
def Owns (sd : Sd) : Prop := ∃ o : Owner, (sd, o) ∈ srv.opened ∧ o.sess = some s.addr

/-- The session closes each of its open descriptors once and no other, and their handlers go. -/
structure Exact : Prop where
  once : s.destroyedSds.Nodup
  owned : ∀ sd, sd ∈ s.destroyedSds ↔ srv.Owns s sd
  opened : (srv.destroyRtspSess s).opened = srv.opened.filter (·.2.sess ≠ some s.addr)
  handlers : (srv.destroyRtspSess s).sdHandlerList = srv.sdHandlerList.filter (·.arg ≠ some s.addr)

def OpenFor (media : MediaType) : Prop := Owner.media s.addr media ∈ srv.opened.map Prod.snd

instance (media : MediaType) : Decidable (srv.OpenFor s media) := inferInstanceAs (Decidable (_ ∈ _))

/-- In the interleaved mode nothing is open for the media, else something is open for both. -/
def Closable : Prop := ∀ media, srv.OpenFor s media ↔ s.intlvdMode = false

instance : Decidable (srv.Closable s) := inferInstanceAs (Decidable (∀ _, _))

def Recorded (sd : Sd) : Prop := sd = s.rtspSd ∨ ∃ media, srv.OpenFor s media ∧ sd ∈ (s.rtpRtcp media).sds

instance (sd : Sd) : Decidable (srv.Recorded s sd) := inferInstanceAs (Decidable (_ ∨ ∃ _, _))

def UdpEnv.Assigns (env : UdpEnv) : Prop :=
  env.firstSd ≠ none ∧ env.bindFirst ∧ env.firstPort ≠ none ∧ env.secondSd ≠ none
    ∧ env.bindSecond ≠ .failed ∧ env.bindSecond ≠ .addrInUse false ∧ env.getsocknameSecond

instance (env : UdpEnv) : Decidable env.Assigns := inferInstanceAs (Decidable (_ ∧ _))

-- No call fails once a handler was registered.
def UdpEnv.Settled (env : UdpEnv) : Prop :=
  env.Assigns → env.monitor → env.registerRtp → env.registerRtcp ∧ env.getpeername

instance (env : UdpEnv) : Decidable env.Settled := inferInstanceAs (Decidable (_ → _))

end Properties

def Keeps (srv : Server) : Event → Prop
  | .destroy addr => ∀ s ∈ srv.sess addr, s.handlingState = .init → srv.Exact s
  | .destroyContain sd => ∀ s ∈ srv.containing sd, s.handlingState = .init → srv.Owns s sd ∧ srv.Exact s
  | _ => True

def Closes (srv : Server) : Event → Prop
  | .destroy addr => ∀ s ∈ srv.sess addr, s.handlingState = .init → srv.Closable s
  | .destroyContain sd => ∀ s ∈ srv.containing sd, s.handlingState = .init → srv.Recorded s sd ∧ srv.Closable s
  | _ => True

/-- A SETUP leaves the descriptors alone that are open for its media, and no handlers of closed ones. -/
def SetsUpOnce (srv : Server) : Event → Prop
  | .setup addr media rtpChn rtcpChn env => ∀ s ∈ srv.sess addr,
      if s.intlvdMode then srv.OpenFor s media → (s.rtpRtcp media).setTcp rtpChn rtcpChn = s.rtpRtcp media
      else ¬ srv.OpenFor s media ∧ env.Settled
  | _ => True

instance (srv : Server) : DecidablePred srv.Closes
  | .destroy addr => inferInstanceAs (Decidable (∀ s ∈ srv.sess addr, _ → srv.Closable s))
  | .destroyContain sd => inferInstanceAs (Decidable (∀ s ∈ srv.containing sd, _ → _ ∧ srv.Closable s))
  | .create .. | .transport .. | .setup .. | .handling .. => isTrue trivial

instance (srv : Server) : DecidablePred srv.SetsUpOnce
  | .setup addr .. => inferInstanceAs (Decidable (∀ s ∈ srv.sess addr, ite _ _ _))
  | .create .. | .transport .. | .handling .. | .destroy .. | .destroyContain .. => isTrue trivial

structure Sound (srv : Server) : Prop where
  addrs : (srv.rtspSessList.map Sess.addr).Nodup
  sds : (srv.opened.map Prod.fst).Nodup
  nonneg : ∀ p ∈ srv.opened, p.1 < 0x80000000
  handlerSds : (srv.sdHandlerList.map SdHandler.sd).Nodup
  handlers : ∀ h ∈ srv.sdHandlerList, ∃ o, (h.sd, o) ∈ srv.opened ∧ o.sess = h.arg
  live : ∀ p ∈ srv.opened, ∀ addr, p.2.sess = some addr → addr ∈ srv.rtspSessList.map Sess.addr
  rtsp : ∀ s ∈ srv.rtspSessList, ∀ sd, (sd, .rtsp s.addr) ∈ srv.opened ↔ sd = s.rtspSd
  media : ∀ s ∈ srv.rtspSessList, ∀ media, srv.OpenFor s media → (s.rtpRtcp media).sds.Nodup ∧
    ∀ sd, (sd, .media s.addr media) ∈ srv.opened ↔ sd ∈ (s.rtpRtcp media).sds

section Destruction

variable {srv : Server} {s : Sess}

lemma Sound.owner_unique (h : srv.Sound) {sd : Sd} {o o' : Owner} (ho : (sd, o) ∈ srv.opened)
    (ho' : (sd, o') ∈ srv.opened) : o = o' :=
  congrArg Prod.snd (List.inj_on_of_nodup_map h.sds ho ho' rfl)

lemma Sound.media_sds (h : srv.Sound) (hs : s ∈ srv.rtspSessList) {media : MediaType} {sd : Sd}
    (hsd : (sd, .media s.addr media) ∈ srv.opened) : srv.OpenFor s media ∧ sd ∈ (s.rtpRtcp media).sds := by
  have hopen : srv.OpenFor s media := List.mem_map.mpr ⟨_, hsd, rfl⟩
  exact ⟨hopen, ((h.media s hs media hopen).2 sd).mp hsd⟩

lemma Sound.owns_iff (h : srv.Sound) (hs : s ∈ srv.rtspSessList) (sd : Sd) :
    srv.Owns s sd ↔ srv.Recorded s sd := by
  constructor
  · rintro ⟨o, ho, hsess⟩
    cases o with
    | foreign => cases hsess
    | server => cases hsess
    | rtsp addr =>
      obtain rfl : addr = s.addr := Option.some.inj hsess
      exact .inl ((h.rtsp s hs sd).mp ho)
    | media addr media =>
      obtain rfl : addr = s.addr := Option.some.inj hsess
      exact .inr ⟨media, h.media_sds hs ho⟩
  · rintro (hsd | ⟨media, hopen, hsd⟩)
    · exact ⟨_, (h.rtsp s hs sd).mpr hsd, rfl⟩
    · exact ⟨_, ((h.media s hs media hopen).2 sd).mpr hsd, rfl⟩

lemma closeSd_eq (hn : ∀ p ∈ srv.opened, p.1 < 0x80000000) (sd : Sd) :
    srv.closeSd sd = { srv with opened := srv.opened.filter (·.1 ≠ sd) } := by
  rw [closeSd]
  split_ifs with hsd
  · have hall : srv.opened.filter (·.1 ≠ sd) = srv.opened := by
      apply List.filter_eq_self.mpr
      intro p hp
      have hne : p.1 ≠ sd := fun heq => UInt32.not_lt.mpr hsd (heq ▸ hn p hp)
      simp [hne]
    rw [hall]
  · rfl

lemma foldl_close (sds : List Sd) (hn : ∀ p ∈ srv.opened, p.1 < 0x80000000)
    (hh : (srv.sdHandlerList.map SdHandler.sd).Nodup) :
    (sds.foldl (fun srv sd => (srv.deregisterSdHandler sd).closeSd sd) srv) =
      ⟨srv.rtspSessList, srv.sdHandlerList.filter (·.sd ∉ sds), srv.opened.filter (·.1 ∉ sds)⟩ := by
  induction sds generalizing srv with
  | nil => simp
  | cons sd sds ih =>
    have hnext : (srv.deregisterSdHandler sd).closeSd sd =
        ⟨srv.rtspSessList, srv.sdHandlerList.filter (·.sd ≠ sd), srv.opened.filter (·.1 ≠ sd)⟩ := by
      rw [@closeSd_eq (srv.deregisterSdHandler sd) hn, deregisterSdHandler, eraseP_key _ hh]
    rw [List.foldl_cons, hnext, ih]
    · simp only [List.filter_filter, List.mem_cons, not_or, Bool.decide_and, Bool.and_comm]
    · exact fun p hp => hn p (List.mem_of_mem_filter hp)
    · exact hh.sublist (List.filter_sublist.map _)

lemma destroyRtspSess_init (h : srv.Sound) (hi : s.handlingState = .init) :
    srv.destroyRtspSess s = ⟨srv.rtspSessList.filter (·.addr ≠ s.addr),
      srv.sdHandlerList.filter (·.sd ∉ s.destroyedSds), srv.opened.filter (·.1 ∉ s.destroyedSds)⟩ := by
  rw [destroyRtspSess, if_neg (not_not_intro hi)]
  exact foldl_close _ h.nonneg h.handlerSds

lemma mem_destroyedSds (hc : srv.Closable s) (sd : Sd) : sd ∈ s.destroyedSds ↔ srv.Recorded s sd := by
  have hv := hc .video
  have ha := hc .audio
  cases hm : s.intlvdMode with
  | false =>
    have hex : (∃ media, srv.OpenFor s media ∧ sd ∈ (s.rtpRtcp media).sds) ↔ sd ∈ s.video.sds ++ s.audio.sds := by
      constructor
      · rintro ⟨_ | _, -, hsd⟩
        · exact List.mem_append_left _ hsd
        · exact List.mem_append_right _ hsd
      · intro hsd
        rcases List.mem_append.mp hsd with hsd | hsd
        · exact ⟨.video, hv.mpr hm, hsd⟩
        · exact ⟨.audio, ha.mpr hm, hsd⟩
    rw [Sess.destroyedSds, hm, if_neg Bool.false_ne_true, List.mem_cons, Recorded, hex]
  | true =>
    have hnone : ¬ ∃ media, srv.OpenFor s media ∧ sd ∈ (s.rtpRtcp media).sds := by
      rintro ⟨media, hopen, -⟩
      exact Bool.false_ne_true (((hc media).mp hopen).symm.trans hm)
    rw [Sess.destroyedSds, hm, if_pos rfl, List.mem_singleton, Recorded]
    exact (or_iff_left hnone).symm

lemma destroyedSds_nodup (h : srv.Sound) (hs : s ∈ srv.rtspSessList) (hc : srv.Closable s) :
    s.destroyedSds.Nodup := by
  cases hm : s.intlvdMode with
  | true => simp [Sess.destroyedSds, hm]
  | false =>
    obtain ⟨hvnodup, hv⟩ := h.media s hs .video ((hc .video).mpr hm)
    obtain ⟨hanodup, ha⟩ := h.media s hs .audio ((hc .audio).mpr hm)
    rw [Sess.destroyedSds, hm, if_neg Bool.false_ne_true, List.nodup_cons]
    refine ⟨?_, List.nodup_append.mpr ⟨hvnodup, hanodup, ?_⟩⟩
    · intro hmem
      have hrtsp := (h.rtsp s hs s.rtspSd).mpr rfl
      rcases List.mem_append.mp hmem with hmem | hmem
      · cases h.owner_unique hrtsp ((hv _).mpr hmem)
      · cases h.owner_unique hrtsp ((ha _).mpr hmem)
    · rintro sd hvideo _ haudio rfl
      cases h.owner_unique ((hv sd).mpr hvideo) ((ha sd).mpr haudio)

lemma exact_of_closable (h : srv.Sound) (hs : s ∈ srv.rtspSessList) (hi : s.handlingState = .init)
    (hc : srv.Closable s) : srv.Exact s := by
  have howned (sd : Sd) : sd ∈ s.destroyedSds ↔ srv.Owns s sd :=
    (mem_destroyedSds hc sd).trans (h.owns_iff hs sd).symm
  have hentry {p : Sd × Owner} (hp : p ∈ srv.opened) : p.1 ∈ s.destroyedSds ↔ p.2.sess = some s.addr := by
    rw [howned]
    exact ⟨fun ⟨o, ho, hsess⟩ => h.owner_unique hp ho ▸ hsess, fun hsess => ⟨p.2, hp, hsess⟩⟩
  refine ⟨destroyedSds_nodup h hs hc, howned, ?_, ?_⟩
  · rw [destroyRtspSess_init h hi]
    apply List.filter_congr
    intro p hp
    exact decide_eq_decide.mpr (not_congr (hentry hp))
  · rw [destroyRtspSess_init h hi]
    apply List.filter_congr
    intro hd hhd
    obtain ⟨o, ho, hsess⟩ := h.handlers hd hhd
    exact decide_eq_decide.mpr (not_congr (hsess ▸ hentry ho))

lemma closable_of_exact (h : srv.Sound) (hs : s ∈ srv.rtspSessList) (he : srv.Exact s) : srv.Closable s := by
  intro media
  cases hm : s.intlvdMode with
  | true =>
    have hnot : ¬ srv.OpenFor s media := by
      intro hopen
      obtain ⟨⟨sd, o⟩, hsd, rfl⟩ := List.mem_map.mp hopen
      have hmem : sd ∈ s.destroyedSds := (he.owned sd).mpr ⟨_, hsd, rfl⟩
      rw [Sess.destroyedSds, hm, if_pos rfl, List.mem_singleton] at hmem
      cases h.owner_unique hsd ((h.rtsp s hs sd).mpr hmem)
    simp [hnot]
  | false =>
    simp only [iff_true]
    have honce := he.once
    rw [Sess.destroyedSds, hm, if_neg Bool.false_ne_true, List.nodup_cons, List.nodup_append] at honce
    obtain ⟨hrtsp, -, -, hdisj⟩ := honce
    have hmem {m : MediaType} {sd : Sd} (hsd : sd ∈ (s.rtpRtcp m).sds) : sd ∈ s.video.sds ++ s.audio.sds := by
      cases m with
      | video => exact List.mem_append_left _ hsd
      | audio => exact List.mem_append_right _ hsd
    have hrtp : (s.rtpRtcp media).rtpSd ∈ (s.rtpRtcp media).sds := List.mem_cons_self
    -- The descriptor is the session's, but neither that of the connection nor that of the other media.
    have hdest : (s.rtpRtcp media).rtpSd ∈ s.destroyedSds := by
      rw [Sess.destroyedSds, hm, if_neg Bool.false_ne_true]
      exact List.mem_cons_of_mem _ (hmem hrtp)
    rcases (h.owns_iff hs _).mp ((he.owned _).mp hdest) with heq | ⟨other, hopen, hsd⟩
    · exact absurd (hmem (heq ▸ hrtp)) hrtsp
    · cases media <;> cases other
      · exact hopen
      · exact absurd rfl (hdisj _ hrtp _ hsd)
      · exact absurd rfl (hdisj _ hsd _ hrtp)
      · exact hopen

lemma sound_destroy (h : srv.Sound) (hs : s ∈ srv.rtspSessList) (hi : s.handlingState = .init)
    (hc : srv.Closable s) : (srv.destroyRtspSess s).Sound := by
  have he := exact_of_closable h hs hi hc
  have hlist : (srv.destroyRtspSess s).rtspSessList = srv.rtspSessList.filter (·.addr ≠ s.addr) := by
    rw [destroyRtspSess_init h hi]
  have hother {s' : Sess} (hs' : s' ∈ (srv.destroyRtspSess s).rtspSessList) :
      s' ∈ srv.rtspSessList ∧ s'.addr ≠ s.addr := by
    rw [hlist, List.mem_filter] at hs'
    exact ⟨hs'.1, of_decide_eq_true hs'.2⟩
  have hopened (p : Sd × Owner) : p ∈ (srv.destroyRtspSess s).opened ↔
      p ∈ srv.opened ∧ p.2.sess ≠ some s.addr := by
    rw [he.opened, List.mem_filter, decide_eq_true_iff]
  have hkept {s' : Sess} (hs' : s' ∈ (srv.destroyRtspSess s).rtspSessList) {o : Owner} (ho : o.sess = some s'.addr)
      (sd : Sd) : (sd, o) ∈ (srv.destroyRtspSess s).opened ↔ (sd, o) ∈ srv.opened := by
    rw [hopened]
    refine and_iff_left ?_
    change o.sess ≠ some s.addr
    rw [ho]
    exact fun heq => (hother hs').2 (Option.some.inj heq)
  refine ⟨?_, ?_, ?_, ?_, ?_, ?_, ?_, ?_⟩
  · rw [hlist]
    exact h.addrs.sublist (List.filter_sublist.map _)
  · rw [he.opened]
    exact h.sds.sublist (List.filter_sublist.map _)
  · exact fun p hp => h.nonneg p ((hopened p).mp hp).1
  · rw [he.handlers]
    exact h.handlerSds.sublist (List.filter_sublist.map _)
  · intro hd hhd
    rw [he.handlers, List.mem_filter, decide_eq_true_iff] at hhd
    obtain ⟨o, ho, hsess⟩ := h.handlers hd hhd.1
    exact ⟨o, (hopened _).mpr ⟨ho, hsess ▸ hhd.2⟩, hsess⟩
  · intro p hp addr hsess
    obtain ⟨hp, hne⟩ := (hopened p).mp hp
    obtain ⟨s', hs', rfl⟩ := List.mem_map.mp (h.live p hp addr hsess)
    rw [hlist]
    refine List.mem_map_of_mem (List.mem_filter.mpr ⟨hs', decide_eq_true ?_⟩)
    exact fun heq => hne (hsess.trans (congrArg some heq))
  · intro s' hs' sd
    rw [hkept hs' rfl]
    exact h.rtsp s' (hother hs').1 sd
  · intro s' hs' media hopen
    obtain ⟨⟨sd, o⟩, hsd, rfl⟩ := List.mem_map.mp hopen
    obtain ⟨hnodup, hmedia⟩ := h.media s' (hother hs').1 media
      (List.mem_map.mpr ⟨_, (hkept hs' rfl sd).mp hsd, rfl⟩)
    exact ⟨hnodup, fun sd => (hkept hs' rfl sd).trans (hmedia sd)⟩

end Destruction

section Sessions

variable {srv : Server}

lemma sess_some {addr : ℕ} {s : Sess} (h : srv.sess addr = some s) : s ∈ srv.rtspSessList ∧ s.addr = addr :=
  ⟨List.mem_of_find?_eq_some h, by simpa using List.find?_some h⟩

lemma containing_some {sd : Sd} {s : Sess} (h : srv.containing sd = some s) : s ∈ srv.rtspSessList :=
  List.mem_of_find?_eq_some h

lemma sess_none {addr : ℕ} (h : srv.sess addr = none) : addr ∉ srv.rtspSessList.map Sess.addr := by
  intro hmem
  obtain ⟨s, hs, rfl⟩ := List.mem_map.mp hmem
  exact List.find?_eq_none.mp h s hs (beq_self_eq_true _)

@[simp] lemma setRtpRtcp_addr (s : Sess) (media : MediaType) (u : RtpRtcp) :
    (s.setRtpRtcp media u).addr = s.addr := by
  cases media <;> rfl

@[simp] lemma setRtpRtcp_rtspSd (s : Sess) (media : MediaType) (u : RtpRtcp) :
    (s.setRtpRtcp media u).rtspSd = s.rtspSd := by
  cases media <;> rfl

lemma rtpRtcp_setRtpRtcp (s : Sess) (media m : MediaType) (u : RtpRtcp) :
    (s.setRtpRtcp media u).rtpRtcp m = if m = media then u else s.rtpRtcp m := by
  cases media <;> cases m <;> rfl

lemma sound_modify (h : srv.Sound) (addr : ℕ) (f : Sess → Sess) (haddr : ∀ s, (f s).addr = s.addr)
    (hrtsp : ∀ s, (f s).rtspSd = s.rtspSd)
    (hmedia : ∀ s ∈ srv.rtspSessList, s.addr = addr → ∀ media, srv.OpenFor s media →
      (f s).rtpRtcp media = s.rtpRtcp media) : (srv.modifySess addr f).Sound := by
  have haddrs : (srv.modifySess addr f).rtspSessList.map Sess.addr = srv.rtspSessList.map Sess.addr := by
    rw [modifySess, List.map_map]
    apply List.map_congr_left
    intro s _
    by_cases hs : s.addr = addr <;> simp [hs, haddr]
  refine ⟨haddrs ▸ h.addrs, h.sds, h.nonneg, h.handlerSds, h.handlers, haddrs ▸ h.live, ?_, ?_⟩
  · intro s' hs' sd
    obtain ⟨s, hs, rfl⟩ := List.mem_map.mp hs'
    by_cases heq : s.addr = addr
    · rw [if_pos heq, haddr, hrtsp]
      exact h.rtsp s hs sd
    · rw [if_neg heq]
      exact h.rtsp s hs sd
  · intro s' hs' media hopen
    obtain ⟨s, hs, rfl⟩ := List.mem_map.mp hs'
    by_cases heq : s.addr = addr
    · rw [if_pos heq] at hopen ⊢
      rw [OpenFor, haddr] at hopen
      rw [haddr, hmedia s hs heq media hopen]
      exact h.media s hs media hopen
    · rw [if_neg heq] at hopen ⊢
      exact h.media s hs media hopen

end Sessions

section Opening

variable {srv : Server} {sd : Sd}

lemma Sound.fresh_handler (h : srv.Sound) (hf : srv.Fresh sd) : ∀ hd ∈ srv.sdHandlerList, hd.sd ≠ sd := by
  rintro hd hhd rfl
  obtain ⟨o, ho, -⟩ := h.handlers hd hhd
  exact hf.2 (List.mem_map.mpr ⟨_, ho, rfl⟩)

lemma sound_open_server (h : srv.Sound) (hf : srv.Fresh sd) : (srv.openSd sd .server).Sound := by
  have hcons {p : Sd × Owner} (hp : p.2 ≠ .server) : p ∈ (srv.openSd sd .server).opened ↔ p ∈ srv.opened := by
    rw [openSd, List.mem_cons]
    exact or_iff_right fun heq => hp (heq ▸ rfl)
  refine ⟨h.addrs, List.nodup_cons.mpr ⟨hf.2, h.sds⟩, ?_, h.handlerSds, ?_, ?_, ?_, ?_⟩
  · exact List.forall_mem_cons.mpr ⟨hf.1, h.nonneg⟩
  · intro hd hhd
    obtain ⟨o, ho, hsess⟩ := h.handlers hd hhd
    exact ⟨o, List.mem_cons_of_mem _ ho, hsess⟩
  · exact List.forall_mem_cons.mpr ⟨fun _ hsess => absurd hsess nofun, h.live⟩
  · intro s hs sd'
    rw [hcons Owner.noConfusion]
    exact h.rtsp s hs sd'
  · intro s hs media hopen
    obtain ⟨hnodup, hmedia⟩ := h.media s hs media (by simpa [OpenFor, openSd] using hopen)
    exact ⟨hnodup, fun sd' => (hcons Owner.noConfusion).trans (hmedia sd')⟩

lemma createRtspSess_cases (h : srv.Sound) (hf : srv.Fresh sd) (addr : ℕ) (env : CreateEnv) :
    srv.createRtspSess sd addr env = srv.openSd sd .server ∨
      srv.createRtspSess sd addr env = ⟨⟨addr, sd, false, .init, ⟨0, 0⟩, ⟨0, 0⟩⟩ :: srv.rtspSessList,
        srv.sdHandlerList ++ [⟨sd, .rtsp, some addr⟩], (sd, .rtsp addr) :: srv.opened⟩ := by
  have hother (hd : SdHandler) (hhd : hd ∈ srv.sdHandlerList) : ¬ (hd.sd == sd) := by
    simpa using h.fresh_handler hf hd hhd
  rw [createRtspSess]
  by_cases hregister : env.register
  · rw [if_neg (not_not_intro hregister)]
    split_ifs
    · left
      rw [deregisterSdHandler]
      refine congrArg (Server.mk _ · _) ?_
      change (srv.sdHandlerList ++ [_]).eraseP _ = srv.sdHandlerList
      rw [List.eraseP_append_right _ hother]
      simp
    · exact .inr rfl
  · left
    rw [if_pos hregister, deregisterSdHandler]
    exact congrArg (Server.mk _ · _) (List.eraseP_of_forall_not hother)

lemma sound_create (h : srv.Sound) (hf : srv.Fresh sd) {addr : ℕ} (haddr : srv.sess addr = none)
    (env : CreateEnv) : (srv.createRtspSess sd addr env).Sound := by
  rcases createRtspSess_cases h hf addr env with hnew | hnew
  · rw [hnew]
    exact sound_open_server h hf
  rw [hnew]
  have hnone := sess_none haddr
  -- Nothing is open yet for the address.
  have hfree {p : Sd × Owner} (hp : p ∈ srv.opened) : p.2.sess ≠ some addr :=
    fun hsess => hnone (h.live p hp addr hsess)
  have hne {s : Sess} (hs : s ∈ srv.rtspSessList) : s.addr ≠ addr :=
    fun heq => hnone (heq ▸ List.mem_map_of_mem hs)
  refine ⟨List.nodup_cons.mpr ⟨hnone, h.addrs⟩, List.nodup_cons.mpr ⟨hf.2, h.sds⟩,
    List.forall_mem_cons.mpr ⟨hf.1, h.nonneg⟩, ?_, ?_, ?_, ?_, ?_⟩
  · rw [List.map_append, List.nodup_append]
    refine ⟨h.handlerSds, List.nodup_singleton _, ?_⟩
    intro sd' hsd' _ hmem heq
    obtain ⟨hd, hhd, rfl⟩ := List.mem_map.mp hsd'
    exact h.fresh_handler hf hd hhd (heq.trans (List.mem_singleton.mp hmem))
  · intro hd hhd
    rcases List.mem_append.mp hhd with hhd | hhd
    · obtain ⟨o, ho, hsess⟩ := h.handlers hd hhd
      exact ⟨o, List.mem_cons_of_mem _ ho, hsess⟩
    · obtain rfl := List.mem_singleton.mp hhd
      exact ⟨_, List.mem_cons_self, rfl⟩
  · refine List.forall_mem_cons.mpr ⟨?_, ?_⟩
    · intro addr' hsess
      exact Option.some.inj hsess ▸ List.mem_cons_self
    · intro p hp addr' hsess
      exact List.mem_cons_of_mem _ (h.live p hp addr' hsess)
  · refine List.forall_mem_cons.mpr ⟨?_, ?_⟩
    · intro sd'
      rw [List.mem_cons, Prod.mk.injEq, and_iff_left rfl]
      exact or_iff_left fun hmem => hfree hmem rfl
    · intro s hs sd'
      rw [List.mem_cons, ← h.rtsp s hs sd']
      refine or_iff_right fun heq => hne hs ?_
      injection congrArg Prod.snd heq
  · refine List.forall_mem_cons.mpr ⟨?_, ?_⟩
    · intro media hopen
      obtain ⟨p, hp, howner⟩ := List.mem_map.mp hopen
      rcases List.mem_cons.mp hp with rfl | hp
      · cases howner
      · exact absurd (howner ▸ rfl) (hfree hp)
    · intro s hs media hopen
      obtain ⟨hnodup, hmedia⟩ := h.media s hs media (by simpa [OpenFor] using hopen)
      refine ⟨hnodup, fun sd' => (List.mem_cons.trans (or_iff_right ?_)).trans (hmedia sd')⟩
      intro heq
      cases congrArg Prod.snd heq

end Opening

end Server

end SimpleCode.LibRtspServer.Descriptors
