import SimpleCode.LibRtspServer.DescriptorOwnership

set_option autoImplicit false

namespace SimpleCode.LibRtspServer.Descriptors

open Foundations

namespace Server

variable {srv : Server}

section Setup

variable {addr : ℕ} {media : MediaType}

@[simp] lemma closeSd_noSd : srv.closeSd noSd = srv := if_pos (by decide)

lemma closeSd_openSd {sd : Sd} (hf : srv.Fresh sd) (o : Owner) : (srv.openSd sd o).closeSd sd = srv := by
  have hall : srv.opened.filter (·.1 ≠ sd) = srv.opened := by
    apply List.filter_eq_self.mpr
    intro p hp
    have hne : p.1 ≠ sd := fun heq => hf.2 (heq ▸ List.mem_map_of_mem hp)
    simp [hne]
  rw [closeSd, if_neg (UInt32.not_le.mpr hf.1), openSd]
  exact congrArg (Server.mk _ _) ((List.filter_cons_of_neg (by simp)).trans hall)

lemma closeSd_openSd_ne {sd sd' : Sd} (hne : sd ≠ sd') (o : Owner) :
    (srv.openSd sd o).closeSd sd' = (srv.closeSd sd').openSd sd o := by
  rw [closeSd, closeSd]
  split_ifs
  · rfl
  · exact congrArg (Server.mk _ _) (List.filter_cons_of_pos (by simpa using hne))

lemma setupErr_openSd {firstSd secondSd : Sd} (hf : srv.Fresh firstSd) (hs : srv.Fresh secondSd)
    (hne : firstSd ≠ secondSd) (o : Owner) :
    ((srv.openSd firstSd o).openSd secondSd o).setupErr firstSd secondSd = srv := by
  rw [setupErr, closeSd_openSd_ne hne.symm, closeSd_openSd hf, closeSd_openSd hs]

lemma setupErr_modifySess (firstSd secondSd : Sd) (f : Sess → Sess) :
    (srv.modifySess addr f).setupErr firstSd secondSd = (srv.setupErr firstSd secondSd).modifySess addr f := by
  have hclose (srv : Server) (sd : Sd) : (srv.modifySess addr f).closeSd sd = (srv.closeSd sd).modifySess addr f := by
    rw [closeSd, closeSd]
    split_ifs <;> rfl
  rw [setupErr, hclose, hclose, setupErr]

def served (srv : Server) (addr : ℕ) (media : MediaType) (u : RtpRtcp) (firstSd secondSd : Sd) : Server :=
  ⟨(srv.modifySess addr (·.setRtpRtcp media u)).rtspSessList,
    srv.sdHandlerList ++ [⟨u.rtpSd, .rtp, some addr⟩, ⟨u.rtcpSd, .rtcp, some addr⟩],
    (secondSd, .media addr media) :: (firstSd, .media addr media) :: srv.opened⟩

lemma setupNonIntlvdMode_cases {env : UdpEnv} (hset : env.Settled)
    (hnodup : env.sds.Nodup) (hfresh : ∀ sd ∈ env.sds, srv.Fresh sd) :
    srv.setupNonIntlvdMode addr media env = srv
      ∨ (∃ u, srv.setupNonIntlvdMode addr media env = srv.modifySess addr (·.setRtpRtcp media u))
      ∨ ∃ u firstSd secondSd, u.sds.Perm [secondSd, firstSd] ∧ firstSd ≠ secondSd
        ∧ srv.Fresh firstSd ∧ srv.Fresh secondSd
        ∧ srv.setupNonIntlvdMode addr media env = srv.served addr media u firstSd secondSd := by
  rw [setupNonIntlvdMode]
  cases hfirst : env.firstSd with
  | none => exact .inl (by simp [setupErr])
  | some firstSd =>
    have hf : srv.Fresh firstSd := hfresh firstSd (by simp [UdpEnv.sds, hfirst])
    have herr : (srv.openSd firstSd (.media addr media)).setupErr firstSd noSd = srv := by
      rw [setupErr, closeSd_openSd hf, closeSd_noSd]
    by_cases hbind : env.bindFirst
    case neg => exact .inl (by simp [hbind, herr])
    cases hport : env.firstPort with
    | none => exact .inl (by simp [hbind, herr])
    | some firstPort =>
      cases hsecond : env.secondSd with
      | none => exact .inl (by simp [hbind, herr])
      | some secondSd =>
        have hs : srv.Fresh secondSd := hfresh secondSd (by simp [UdpEnv.sds, hsecond])
        have hne : firstSd ≠ secondSd := by simpa [UdpEnv.sds, hfirst, hsecond] using hnodup
        have herr₂ := setupErr_openSd hf hs hne (.media addr media)
        by_cases hbound : env.bindSecond = .failed ∨ env.bindSecond = .addrInUse false ∨ ¬ env.getsocknameSecond
        case pos => exact .inl (by simp only [hbind, not_true, if_false, if_pos hbound, herr₂])
        simp only [hbind, not_true, if_false, if_neg hbound]
        right
        rw [not_or, not_or, not_not] at hbound
        have hassigns : env.Assigns := by
          refine ⟨?_, hbind, ?_, ?_, hbound.1, hbound.2.1, hbound.2.2⟩
          · exact hfirst ▸ Option.some_ne_none _
          · exact hport ▸ Option.some_ne_none _
          · exact hsecond ▸ Option.some_ne_none _
        obtain ⟨u, hu⟩ : ∃ u : RtpRtcp,
          (if firstPort % 2 = 1 then ⟨secondSd, firstSd⟩ else ⟨firstSd, secondSd⟩) = u := ⟨_, rfl⟩
        have hperm : u.sds.Perm [secondSd, firstSd] := by
          rw [← hu]
          split_ifs
          · exact .refl _
          · exact .swap ..
        simp only [assignUdp, hu]
        by_cases hreg : ¬ env.monitor ∨ ¬ env.registerRtp
        · left
          refine ⟨u, ?_⟩
          rw [if_pos hreg, setupErr_modifySess, herr₂]
        · right
          obtain ⟨hmon, hrtp⟩ := not_or.mp hreg
          obtain ⟨hrtcp, hpeer⟩ := hset hassigns (not_not.mp hmon) (not_not.mp hrtp)
          refine ⟨u, firstSd, secondSd, hperm, hne, hf, hs, ?_⟩
          rw [if_neg hreg, if_neg (not_not_intro hrtcp), if_neg (not_not_intro hpeer)]
          simp only [registerSdHandler, served, List.append_assoc]
          rfl

lemma sound_opened {s : Sess} (h : srv.Sound) (hs : s ∈ srv.rtspSessList) (hopen : ¬ srv.OpenFor s media)
    {u : RtpRtcp} (hmedia : s.rtpRtcp media = u) {firstSd secondSd : Sd} (hu : u.sds.Perm [secondSd, firstSd])
    (hne : firstSd ≠ secondSd) (hf : srv.Fresh firstSd) (hf' : srv.Fresh secondSd) :
    Sound ⟨srv.rtspSessList,
      srv.sdHandlerList ++ [⟨u.rtpSd, .rtp, some s.addr⟩, ⟨u.rtcpSd, .rtcp, some s.addr⟩],
      (secondSd, .media s.addr media) :: (firstSd, .media s.addr media) :: srv.opened⟩ := by
  have hnodup : u.sds.Nodup := hu.nodup_iff.mpr (by simpa using hne.symm)
  have hfresh {sd : Sd} (hsd : sd ∈ u.sds) : srv.Fresh sd := by
    rcases List.mem_pair.mp (hu.mem_iff.mp hsd) with rfl | rfl
    · exact hf'
    · exact hf
  have hmem (sd : Sd) (o : Owner) : (sd, o) ∈ (secondSd, .media s.addr media) :: (firstSd, .media s.addr media)
      :: srv.opened ↔ (sd ∈ u.sds ∧ o = .media s.addr media) ∨ (sd, o) ∈ srv.opened := by
    rw [List.mem_cons, List.mem_cons, hu.mem_iff, List.mem_pair, Prod.mk.injEq, Prod.mk.injEq, ← or_assoc,
      or_and_right]
  refine ⟨h.addrs, ?_, ?_, ?_, ?_, ?_, ?_, ?_⟩
  · refine List.nodup_cons.mpr ⟨?_, List.nodup_cons.mpr ⟨hf.2, h.sds⟩⟩
    exact List.not_mem_cons_of_ne_of_not_mem hne.symm hf'.2
  · exact List.forall_mem_cons.mpr ⟨hf'.1, List.forall_mem_cons.mpr ⟨hf.1, h.nonneg⟩⟩
  · rw [List.map_append, List.nodup_append]
    refine ⟨h.handlerSds, hnodup, ?_⟩
    intro sd hsd sd' hsd' heq
    obtain ⟨hd, hhd, rfl⟩ := List.mem_map.mp hsd
    exact h.fresh_handler (hfresh hsd') hd hhd heq
  · intro hd hhd
    rcases List.mem_append.mp hhd with hhd | hhd
    · obtain ⟨o, ho, hsess⟩ := h.handlers hd hhd
      exact ⟨o, (hmem _ _).mpr (.inr ho), hsess⟩
    · refine ⟨.media s.addr media, (hmem _ _).mpr (.inl ⟨?_, rfl⟩), ?_⟩
      · rcases List.mem_pair.mp hhd with rfl | rfl <;> simp [RtpRtcp.sds]
      · rcases List.mem_pair.mp hhd with rfl | rfl <;> rfl
  · rintro ⟨sd, o⟩ hp addr hsess
    rcases (hmem sd o).mp hp with ⟨-, rfl⟩ | hp
    · exact Option.some.inj hsess ▸ List.mem_map_of_mem hs
    · exact h.live _ hp addr hsess
  · intro s' hs' sd
    refine (hmem sd _).trans ((or_iff_right ?_).trans (h.rtsp s' hs' sd))
    exact fun hnew => Owner.noConfusion hnew.2
  · intro s' hs' m hopen'
    by_cases hsame : Owner.media s'.addr m = .media s.addr media
    · obtain ⟨haddr, rfl⟩ := Owner.media.inj hsame
      obtain rfl : s' = s := List.inj_on_of_nodup_map h.addrs hs' hs haddr
      rw [hmedia]
      refine ⟨hnodup, fun sd => (hmem sd _).trans ?_⟩
      rw [and_iff_left rfl]
      exact or_iff_left fun hold => hopen (List.mem_map.mpr ⟨_, hold, rfl⟩)
    · have hold (sd : Sd) : (sd, .media s'.addr m) ∈ (secondSd, .media s.addr media)
          :: (firstSd, .media s.addr media) :: srv.opened ↔ (sd, .media s'.addr m) ∈ srv.opened :=
        (hmem sd _).trans (or_iff_right fun hnew => hsame hnew.2)
      obtain ⟨⟨sd, o⟩, hsd, rfl⟩ := List.mem_map.mp hopen'
      obtain ⟨hnodup', hmedia'⟩ := h.media s' hs' m (List.mem_map.mpr ⟨_, (hold sd).mp hsd, rfl⟩)
      exact ⟨hnodup', fun sd => (hold sd).trans (hmedia' sd)⟩

lemma sound_record {s : Sess} (h : srv.Sound) (hs : s ∈ srv.rtspSessList) (hopen : ¬ srv.OpenFor s media)
    (u : RtpRtcp) : (srv.modifySess s.addr (·.setRtpRtcp media u)).Sound := by
  apply sound_modify h s.addr
  · exact fun _ => setRtpRtcp_addr _ _ _
  · exact fun _ => setRtpRtcp_rtspSd _ _ _
  · intro s' hs' heq m hopen'
    obtain rfl : s' = s := List.inj_on_of_nodup_map h.addrs hs' hs heq
    rw [rtpRtcp_setRtpRtcp, if_neg]
    rintro rfl
    exact hopen hopen'

lemma sound_served {s : Sess} (h : srv.Sound) (hs : s ∈ srv.rtspSessList) (hopen : ¬ srv.OpenFor s media)
    {u : RtpRtcp} {firstSd secondSd : Sd} (hu : u.sds.Perm [secondSd, firstSd]) (hne : firstSd ≠ secondSd)
    (hf : srv.Fresh firstSd) (hf' : srv.Fresh secondSd) :
    (srv.served s.addr media u firstSd secondSd).Sound := by
  have hs' : s.setRtpRtcp media u ∈ (srv.modifySess s.addr (·.setRtpRtcp media u)).rtspSessList :=
    List.mem_map.mpr ⟨s, hs, if_pos rfl⟩
  have hmedia : (s.setRtpRtcp media u).rtpRtcp media = u := by rw [rtpRtcp_setRtpRtcp, if_pos rfl]
  have hnew := sound_opened (sound_record h hs hopen u) hs' (by simpa [OpenFor, modifySess] using hopen)
    hmedia hu hne hf hf'
  rwa [setRtpRtcp_addr] at hnew

end Setup

lemma sound_step {e : Event} {srv' : Server} (h : srv.Sound) (hsetup : srv.SetsUpOnce e) (hc : srv.Closes e)
    (hstep : srv.step e = some srv') : srv'.Sound := by
  cases e with
  | create rtspSd addr env =>
    rw [step, Option.ite_none_right_eq_some, Option.some.injEq] at hstep
    obtain ⟨⟨hf, haddr⟩, rfl⟩ := hstep
    exact sound_create h hf haddr env
  | transport addr intlvdMode =>
    cases hstep
    exact sound_modify h addr _ (fun _ => rfl) (fun _ => rfl) fun s _ _ media _ => by cases media <;> rfl
  | setup addr media rtpChn rtcpChn env =>
    rw [step, Option.ite_none_right_eq_some] at hstep
    obtain ⟨⟨hnodup, hall⟩, hstep⟩ := hstep
    have hfresh (sd : Sd) (hsd : sd ∈ env.sds) : srv.Fresh sd :=
      of_decide_eq_true (List.all_eq_true.mp hall sd hsd)
    obtain ⟨s, hsess, rfl⟩ := Option.map_eq_some_iff.mp hstep
    obtain ⟨hs, haddr⟩ := sess_some hsess
    have hcond := hsetup s hsess
    rw [createRtpSess]
    split_ifs at hcond ⊢ with hmode
    · apply sound_modify h s.addr
      · exact fun _ => setRtpRtcp_addr _ _ _
      · exact fun _ => setRtpRtcp_rtspSd _ _ _
      · intro s' hs' heq m hopen
        obtain rfl : s' = s := List.inj_on_of_nodup_map h.addrs hs' hs heq
        rw [rtpRtcp_setRtpRtcp]
        split_ifs with hm
        · rw [hm] at hopen ⊢
          exact hcond hopen
        · rfl
    · obtain ⟨hopen, hset⟩ := hcond
      rcases @setupNonIntlvdMode_cases srv s.addr media env hset hnodup hfresh
        with heq | ⟨u, heq⟩ | ⟨u, firstSd, secondSd, hu, hne, hf, hf', heq⟩
      · rwa [heq]
      · rw [heq]
        exact sound_record h hs hopen u
      · rw [heq]
        exact sound_served h hs hopen hu hne hf hf'
  | handling addr state =>
    cases hstep
    exact sound_modify h addr _ (fun _ => rfl) (fun _ => rfl) fun s _ _ media _ => by cases media <;> rfl
  | destroy addr =>
    cases hstep
    cases hsess : srv.sess addr with
    | none => exact h
    | some s =>
      by_cases hi : s.handlingState = .init
      · exact sound_destroy h (sess_some hsess).1 hi (hc s hsess hi)
      · simpa [destroyRtspSess, hi] using h
  | destroyContain sd =>
    cases hstep
    rw [destroyRtspSessContainSd]
    cases hsess : srv.containing sd with
    | none => exact h
    | some s =>
      by_cases hi : s.handlingState = .init
      · exact sound_destroy h (containing_some hsess) hi (hc s hsess hi).2
      · simpa [destroyRtspSess, hi] using h

lemma exact_iff {s : Sess} (h : srv.Sound) (hs : s ∈ srv.rtspSessList) (hi : s.handlingState = .init) :
    srv.Exact s ↔ srv.Closable s :=
  ⟨closable_of_exact h hs, exact_of_closable h hs hi⟩

lemma keeps_iff (h : srv.Sound) (e : Event) : srv.Keeps e ↔ srv.Closes e := by
  cases e with
  | destroy addr =>
    refine forall₃_congr fun s hsess hi => ?_
    exact exact_iff h (sess_some hsess).1 hi
  | destroyContain sd =>
    refine forall₃_congr fun s hsess hi => ?_
    have hs := containing_some hsess
    exact and_congr (h.owns_iff hs sd) (exact_iff h hs hi)
  | create | transport | setup | handling => exact Iff.rfl

lemma sound_start {lsnSd : Sd} {foreign : List Sd} (hnodup : (lsnSd :: foreign).Nodup)
    (hnonneg : ∀ sd ∈ lsnSd :: foreign, sd < 0x80000000) : (start lsnSd foreign).Sound := by
  have hkeys : (start lsnSd foreign).opened.map Prod.fst = lsnSd :: foreign := by
    simp [start, Function.comp_def]
  have hnone : ∀ p ∈ (start lsnSd foreign).opened, p.2.sess = none := by
    simp [start, Owner.sess]
  refine ⟨List.nodup_nil, hkeys ▸ hnodup, ?_, List.nodup_singleton _, ?_, ?_, ?_, ?_⟩
  · intro p hp
    exact hnonneg p.1 (hkeys ▸ List.mem_map_of_mem hp)
  · intro hd hhd
    obtain rfl := List.mem_singleton.mp hhd
    exact ⟨.server, List.mem_cons_self, rfl⟩
  · intro p hp addr hsess
    cases (hnone p hp).symm.trans hsess
  · exact fun s hs => absurd hs List.not_mem_nil
  · exact fun s hs => absurd hs List.not_mem_nil

/-- Where every SETUP opens the descriptors of a media once, the destructions of a run close the
descriptors of the destroyed session exactly when its media are all open, or all interleaved. -/
theorem destroys_iff {lsnSd : Sd} {foreign : List Sd} (hnodup : (lsnSd :: foreign).Nodup)
    (hnonneg : ∀ sd ∈ lsnSd :: foreign, sd < 0x80000000) {es : List Event}
    (hsetup : MeetsAlong step SetsUpOnce (start lsnSd foreign) es) :
    MeetsAlong step Keeps (start lsnSd foreign) es ↔ MeetsAlong step Closes (start lsnSd foreign) es :=
  meetsAlong_iff (fun _ e h _ => keeps_iff h e) (fun _ _ _ h => sound_step h)
    (sound_start hnodup hnonneg) hsetup

theorem destroys_two : MeetsAlong step Keeps (start 3 [0, 1, 2]) [.create 5 1 ⟨true, true, true⟩,
    .create 6 2 ⟨true, true, true⟩, .transport 2 true,
    .setup 1 .video 0 0 ⟨some 7, true, some 5000, some 8, .bound, true, true, true, true, true⟩,
    .setup 2 .video 0 1 ⟨none, false, none, none, .failed, false, false, false, false, false⟩,
    .setup 1 .audio 0 0 ⟨some 9, true, some 5003, some 10, .addrInUse true, true, true, true, true, true⟩,
    .destroyContain 8, .destroy 2] :=
  (destroys_iff (by decide) (by simp) (by decide +kernel)).mpr (by decide +kernel)

/-- A client that is gone before its first SETUP takes the descriptor 0 along. -/
theorem destroy_closes_foreign : ¬ MeetsAlong step Keeps (start 3 [0, 1, 2])
    [.create 5 1 ⟨true, true, true⟩, .destroy 1] := by
  intro h
  have hexact := (h.2 _ rfl).1 ⟨1, 5, false, .init, ⟨0, 0⟩, ⟨0, 0⟩⟩ rfl rfl
  exact absurd hexact.once (by decide)

end Server

end SimpleCode.LibRtspServer.Descriptors
