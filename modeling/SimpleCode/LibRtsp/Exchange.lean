import SimpleCode.LibRtsp.Responses

set_option autoImplicit false

/-! Where the client and the server agree on a request and its response. -/

namespace SimpleCode.LibRtsp

open Foundations Scan
open LibRtspServer (Handling ParseEnv MethodEnv respText)
open LibRtspClient (MediaType RtspResp)

section Agree

variable (s : LibRtspClient.RtspSess) (env : ParseEnv) (a : Asked)

/-- The server has found in a request what the client has put into it. -/
structure Recovers (p : Handling) : Prop where
  state : p.state = .parsed
  status : p.resp.statusCode = .ok
  method : p.req.method = some a.method
  cseq : p.req.cseq = s.curCseq.toNat
  sessId : p.req.sessId = s.sessId.toNat
  transport : ∀ media, a = .setup media → p.req.media = serverMedia media
    ∧ p.intlvdMode = s.intlvdMode
    ∧ if s.intlvdMode then p.req.transport.rtpChn = (transportPair s media).1
        ∧ p.req.transport.rtcpChn = (transportPair s media).2
      else p.req.transport.rtpCliPort = (transportPair s media).1
        ∧ p.req.transport.rtcpCliPort = (transportPair s media).2

/-- The client takes the response, and has found in it what the server has put there. -/
structure Accepted (h : Handling) (c : RtspResp × Bool) : Prop where
  accepted : c.2 = true
  cseq : c.1.cseq = s.curCseq.toNat
  sessId : c.1.sessId = h.resp.sessId
  transport : ∀ media, a = .setup media → c.1.transport.intlvdMode = s.intlvdMode
    ∧ if s.intlvdMode then c.1.transport.rtpChn = (transportPair s media).1
        ∧ c.1.transport.rtcpChn = (transportPair s media).2
      else c.1.transport.rtpCliPort = (transportPair s media).1
        ∧ c.1.transport.rtcpCliPort = (transportPair s media).2
        ∧ c.1.transport.rtpSrvPort = h.resp.transport.rtpSrvPort
        ∧ c.1.transport.rtcpSrvPort = h.resp.transport.rtcpSrvPort
  sdpInfo : a = .describe → ∃ sdp track, c.1.sdpInfo = .info sdp ∧ (sdp .video).enable
    ∧ .control track ∈ (sdp .video).attrs

/-- The session after a request was handled, once or again when it had to be repeated. -/
inductive Served (p : Handling) : LibRtspServer.RtspSess → Prop
  | first {t r : LibRtspServer.RtspSess} {menv : MethodEnv} (ht : t.toHandling = p)
      (hrun : t.runRtspStateMachine menv = .ok r) : Served p r
  | again {t r : LibRtspServer.RtspSess} {menv : MethodEnv} (ht : Served p t) (hstate : t.state = .retry)
      (hrun : t.runRtspStateMachine menv = .ok r) : Served p r

def Agree : Prop :=
  ∀ tm (t : Handling), t.state = .ready → t.req = .fresh → t.resp = .fresh →
    ∃ p, t.parseRtspReq env (LibRtspClient.produceRtspReq s.sessId tm (a.req s)) = .ok p ∧ Recovers s a p
      ∧ ∀ r, Served p r → r.state = .handled ∨ r.state = .error → r.resp.statusCode = .ok →
        ∀ tm', ∃ c, LibRtspClient.parseRtspResp (respText tm' r.toHandling) = .ok c
          ∧ Accepted s a r.toHandling c

end Agree

variable {s : LibRtspClient.RtspSess} {env : ParseEnv} {a : Asked} {h p : Handling}

lemma Parsed.recovers {m : LibRtspServer.MediaType} (hp : Parsed s a .ok m p)
    (ha : ∀ media, a = .setup media → m = serverMedia media) : Recovers s a p where
  state := hp.state rfl
  status := hp.status
  method := hp.method
  cseq := hp.cseq.1
  sessId := hp.sessId.1
  transport media hmedia := ⟨hp.media.trans (ha media hmedia), hp.transport media hmedia⟩

lemma Parsed.served {m : LibRtspServer.MediaType} (hp : Parsed s a .ok m p) (ha : a.method ≠ .describe)
    {r : LibRtspServer.RtspSess} (hserved : Served p r) : ∃ (t : LibRtspServer.RtspSess) (menv : MethodEnv), t.toHandling = p
      ∧ t.runRtspStateMachine menv = .ok r := by
  induction hserved with
  | first ht hrun => exact ⟨_, _, ht, hrun⟩
  | again hserved hstate hrun ih =>
    obtain ⟨t, menv, rfl, ht⟩ := ih
    rw [LibRtspServer.RtspSess.runRtspStateMachine, if_neg fun hne => hne.1 (hp.state rfl), hp.method] at ht
    cases a with
    | describe => exact absurd rfl ha
    | setup media =>
      obtain rfl := Except.ok.inj ht
      change (t.handleMethodSetup menv).state = _ at hstate
      rw [LibRtspServer.RtspSess.handleMethodSetup] at hstate
      split at hstate
      · cases hstate
      · cases hstate
    | play =>
      obtain rfl := Except.ok.inj ht
      change (t.handleMethodPlay).state = _ at hstate
      rw [LibRtspServer.RtspSess.handleMethodPlay] at hstate
      split at hstate
      · cases hstate
      · cases hstate
    | options | teardown =>
      obtain rfl := Except.ok.inj ht
      cases hstate

section Accept

lemma foldl_session (hid : h.resp.sessId < 2 ^ 64) (r : RtspResp) :
    (sessionRespLines h hid).foldl (fun r x => x.effect r) r
      = { r with sessId := if h.resp.sessId = 0 then r.sessId else h.resp.sessId } := by
  by_cases hzero : h.resp.sessId = 0
  · rw [sessionRespLines, if_neg (not_not.mpr hzero), if_pos hzero]
    rfl
  · rw [sessionRespLines, if_pos hzero, if_neg hzero]
    rfl

lemma Handled.accepted (hh : Handled s a h) (ha : a.method ≠ .describe) (tm : Tm) :
    ∃ c, LibRtspClient.parseRtspResp (respText tm h) = .ok c ∧ Accepted s a h c := by
  have hbody : LibRtspServer.body h = [] := if_neg fun hd => ha (Option.some.inj (hh.method.symm.trans hd.2))
  have hne : respHdrLines tm hh ++ methodRespLines hh ≠ [] := List.cons_ne_nil _ _
  rw [parseRtspResp_respText tm hh, methodLines_eq hh ha, hbody, List.nil_append, ← List.map_append,
    respHdrs_lines _ hne]
  refine ⟨_, rfl, ?_⟩
  rw [List.foldl_append, respHdrLines, List.foldl_append, foldl_session]
  have hid : (if h.resp.sessId = 0 then 0 else h.resp.sessId) = h.resp.sessId := by
    split
    · next hzero => exact hzero.symm
    · rfl
  cases a with
  | describe => exact absurd rfl ha
  | setup media =>
    obtain ⟨hmode, hpair⟩ := hh.transport media rfl
    refine ⟨rfl, ?_, ?_, ?_, by rintro ⟨⟩⟩
    · change (respTransport _ h _ _).cseq = _
      rw [respTransport]
      split <;> rfl
    · change (respTransport _ h _ _).sessId = _
      rw [respTransport]
      split <;> exact hid
    · rintro media' hmedia
      obtain rfl : media = media' := by injection hmedia
      change (respTransport _ h _ _).transport.intlvdMode = _
        ∧ if s.intlvdMode then (respTransport _ h _ _).transport.rtpChn = _
            ∧ (respTransport _ h _ _).transport.rtcpChn = _
          else (respTransport _ h _ _).transport.rtpCliPort = _
            ∧ (respTransport _ h _ _).transport.rtcpCliPort = _
            ∧ (respTransport _ h _ _).transport.rtpSrvPort = _
            ∧ (respTransport _ h _ _).transport.rtcpSrvPort = _
      rw [respTransport, hmode]
      cases hintlvd : s.intlvdMode with
      | true => exact ⟨rfl, rfl, rfl⟩
      | false => exact ⟨rfl, rfl, rfl, rfl, rfl⟩
  | _ => exact ⟨rfl, rfl, hid, by rintro _ ⟨⟩, by rintro ⟨⟩⟩

example : hasPrefixCase (bytes "Content-Length") (bytes "Content-length: 46") = true := by decide +kernel

/-- The name of the length is compared without regard to the case, but it is not read so. -/
lemma content_describe (r : RtspResp) {line : Bytes} (hline : isLine line) (n : ℕ) (rest : Bytes) :
    r.content (line ++ (crlf ++ (bytes "Content-length: " ++ dec n ++ (crlf ++ rest)))) = .ok (r, false) := by
  have hnames : isLine (bytes "Content-length: ") ∧ bytes "Content-length: " ≠ [] :=
      ⟨List.all_iff_forall_prop.mp (by decide +kernel), by decide +kernel⟩
  have hcase : (bytes "Content-Length").map toLower <+: (bytes "Content-length: ").map toLower := by
    decide +kernel
  have hname : ¬ bytes "Content-Length:" <+: bytes "Content-length: "
      ∧ ¬ bytes "Content-length: " <+: bytes "Content-Length:" := by decide +kernel
  have hscan : sscanf (lits (bytes "Content-Length:") ++ [.space, .int])
      (bytes "Content-length: " ++ dec n ++ (crlf ++ rest)) = [] := by
    rw [List.append_assoc]
    exact sscanf_lits_ne _ (not_prefix_append hname.1 hname.2 _)
  have hnext : getNextLine (line ++ (crlf ++ (bytes "Content-length: " ++ dec n ++ (crlf ++ rest))))
      = some (bytes "Content-length: " ++ dec n ++ (crlf ++ rest)) := by
    refine getNextLine_line hline ?_
    rw [List.append_assoc]
    exact not_blank_line hnames.1 hnames.2 _
  rw [RtspResp.content]
  split
  · next hnone => cases hnone.symm.trans hnext
  · next line' hsome =>
    obtain rfl := Option.some.inj (hsome.symm.trans hnext)
    rw [hasPrefixCase_first hcase, if_pos rfl, hscan]

lemma Handled.rejected (hh : Handled s .describe h) (tm : Tm) :
    ∃ r, LibRtspClient.parseRtspResp (respText tm h) = .ok (r, false) := by
  have hmethod : LibRtspServer.methodLines h = [bytes "Content-type: application/sdp",
      bytes "Content-length: " ++ dec (h.resp.sdpInfo.getD []).length] := by
    rw [LibRtspServer.methodLines, hh.method]
    rfl
  have hctype : bytes "Content-type: application/sdp" = bytes "Content-type: " ++ bytes "application/sdp" := by
    decide +kernel
  have hlines : isLine (bytes "Content-type: ") ∧ isLine (bytes "application/sdp")
      ∧ bytes "application/sdp" ≠ [] ∧ bytes "Content-type: " ++ bytes "application/sdp" ≠ [] := by
    decide +kernel
  have hcase : (bytes "Content-Type").map toLower <+: (bytes "Content-type: ").map toLower := by
    decide +kernel
  have hlen : (bytes "Content-Type: ").length = (bytes "Content-type: ").length := by decide +kernel
  obtain ⟨hline, hvalue, hvaluene, hne⟩ := hlines
  rw [parseRtspResp_respText tm hh, hmethod, hctype, respHdrs_append _ (hline.append hvalue) hne, joined_cons,
    joined_cons, RtspResp.respHdrs, RtspResp.isContentType, hasPrefixCase_first hcase, if_pos rfl,
    RtspResp.parseHdrContent, hlen, skip_name, ok_bind]
  have hsz : (bytes "application/sdp").length < 64 := by decide +kernel
  obtain ⟨hscan, hstore⟩ := sscanf_store hvalue hvaluene hsz (bytes "Content-length: " ++ dec (h.resp.sdpInfo.getD []).length
      ++ (crlf ++ joined [] (LibRtspServer.body h ++ crlf)))
  simp only [hscan, hstore, ok_bind, content_describe _ (hline.append hvalue), Bool.false_and]
  exact ⟨_, rfl⟩

end Accept

section Disagreement

def readyHandling : Handling := ⟨.ready, false, ⟨0, .main, none⟩, .fresh, .fresh⟩

def anyTm : Tm := ⟨0, 0, 1, 1970, 0, 0, 0⟩

lemma takes_of_agree {media : MediaType} (ha : Asks s env (.setup media)) (hagree : Agree s env (.setup media)) :
    Takes s env media := by
  obtain ⟨p, code, m, hp, hparsed, hcode⟩ := parse_request ha anyTm (t := readyHandling) rfl rfl rfl
  obtain ⟨p', hp', hrecovers, -⟩ := hagree anyTm readyHandling rfl rfl rfl
  obtain rfl : p = p' := Except.ok.inj (hp.symm.trans hp')
  refine ha.locates_setup_iff.mp ((hcode _).mp ⟨?_, ?_⟩)
  · exact hparsed.status.symm.trans hrecovers.status
  · exact hparsed.media.symm.trans (hrecovers.transport media rfl).1

def describedFrm : LibRtspServer.FrmInfo := ⟨.iframe, [0, 0, 0, 1, 0x67, 0, 0, 0, 1, 0x68], fun _ => 0⟩

lemma describedFrm_found : (LibRtspServer.findSpsPps describedFrm.beyond none none describedFrm.frm).isSome := by
  have hsps : LibRtspServer.skipNaluStartCode describedFrm.frm = some [0x67, 0, 0, 0, 1, 0x68] := by decide
  have hpps : LibRtspServer.skipNaluStartCode [0x67, 0, 0, 0, 1, 0x68] = some [0x68] := by decide
  rw [LibRtspServer.findSpsPps_sps hsps (by decide), LibRtspServer.findSpsPps_pps hpps (by decide)]
  rfl

lemma not_agree_describe (ha : Asks s env .describe) : ¬ Agree s env .describe := by
  intro hagree
  obtain ⟨p, code, m, hp, hparsed, hcode⟩ := parse_request ha anyTm (t := readyHandling) rfl rfl rfl
  obtain ⟨rfl, -⟩ := (hcode .video).mpr (ha.locates_plain (by rintro _ ⟨⟩))
  obtain ⟨p', hp', -, hresp⟩ := hagree anyTm readyHandling rfl rfl rfl
  obtain rfl : p = p' := Except.ok.inj (hp.symm.trans hp')
  let t : LibRtspServer.RtspSess := ⟨p, .init, 0, []⟩
  let menv : MethodEnv := ⟨true, some describedFrm, some (fun _ => 1), (0, 0), true, true, 0, none, true⟩
  obtain ⟨sdpInfo, hsdp, hsome⟩ := LibRtspServer.makeSdpInfo_ok menv describedFrm
  obtain ⟨sdp, rfl⟩ := Option.isSome_iff_exists.mp (hsome.mpr ⟨describedFrm_found, rfl⟩)
  have hrun : t.runRtspStateMachine menv
      = .ok (LibRtspServer.RtspSess.become { t with resp.sdpInfo := some sdp } .handled) := by
    rw [LibRtspServer.RtspSess.runRtspStateMachine, if_neg fun hne => hne.1 (hparsed.state rfl), hparsed.method]
    change t.handleMethodDescribe menv = _
    rw [LibRtspServer.RtspSess.handleMethodDescribe, if_neg fun hne => hne.2 rfl]
    change (if describedFrm.frmType ≠ .iframe then _ else _) = _
    rw [if_neg (not_not.mpr rfl : ¬ describedFrm.frmType ≠ .iframe), hsdp]
    rfl
  have hok := hparsed.status
  obtain ⟨c, hc, haccepted⟩ := hresp _ (.first rfl hrun) (.inl rfl) hok anyTm
  obtain ⟨r, hr⟩ := (hparsed.handled rfl hrun (.inl rfl) hok).rejected anyTm
  obtain rfl := Except.ok.inj (hr.symm.trans hc)
  exact Bool.false_ne_true haccepted.accepted

end Disagreement

theorem messages_agree_iff (ha : Asks s env a) :
    Agree s env a ↔ a ≠ .describe ∧ ∀ media, a = .setup media → Takes s env media := by
  refine ⟨fun hagree => ⟨?_, ?_⟩, ?_⟩
  · rintro rfl
    exact not_agree_describe ha hagree
  · rintro media rfl
    exact takes_of_agree ha hagree
  · rintro ⟨hdescribe, htakes⟩ tm t hstate hreq hresp
    have hmethod : a.method ≠ .describe := by
      cases a with
      | describe => exact absurd rfl hdescribe
      | _ => exact nofun
    obtain ⟨p, code, m, hp, hparsed, hcode⟩ := parse_request ha tm hstate hreq hresp
    -- The URI gives the medium of the request, whatever the method is.
    obtain ⟨rfl, hmedia⟩ : code = .ok ∧ ∀ media, a = .setup media → m = serverMedia media := by
      cases a with
      | setup media =>
        obtain ⟨hok, hm⟩ := (hcode _).mpr (ha.locates_setup_iff.mpr (htakes media rfl))
        refine ⟨hok, ?_⟩
        rintro media' hmedia
        obtain rfl : media = media' := by injection hmedia
        exact hm
      | _ => exact ⟨((hcode _).mpr (ha.locates_plain (by rintro _ ⟨⟩))).1, by rintro _ ⟨⟩⟩
    refine ⟨p, hp, hparsed.recovers hmedia, ?_⟩
    intro r hserved hend hok tm'
    obtain ⟨u, menv, hu, hrun⟩ := hparsed.served hmethod hserved
    exact (hparsed.handled hu hrun hend hok).accepted hmethod tm'

section Tracks

variable {sdp : LibRtspClient.SdpInfo} {media : MediaType} {line : Bytes}

def Words (sdp : LibRtspClient.SdpInfo) : Prop :=
  ∀ media track, LibRtspClient.SdpA.control track ∈ (sdp media).attrs → isWord track

lemma isWord_of_scan {t w : Bytes} (h : sscanf (lits t ++ [.word]) line = [.text w]) : isWord w := by
  induction t generalizing line with
  | nil =>
    change (scan [.word] line).1 = _ at h
    rw [scan] at h
    split at h
    · cases h
    · obtain rfl : (line.dropWhile isSpace).takeWhile (!isSpace ·) = w := by simpa [scan] using h
      intro c hc
      have hspace := List.mem_takeWhile_imp hc
      refine ⟨?_, ?_, ?_⟩ <;> rintro rfl <;> exact absurd hspace (by decide)
  | cons x t ih =>
    cases line with
    | nil => cases h
    | cons y line =>
      change (scan (.lit x :: (lits t ++ [.word])) (y :: line)).1 = _ at h
      rw [scan] at h
      split at h
      · exact ih h
      · cases h

lemma Words.set (h : Words sdp) {m : LibRtspClient.SdpM}
    (hm : ∀ track, LibRtspClient.SdpA.control track ∈ m.attrs → isWord track) : Words (sdp.set media m) := by
  intro media' track htrack
  by_cases heq : media' = media
  · subst heq
    exact hm track (by simpa [LibRtspClient.SdpInfo.set] using htrack)
  · exact h media' track (by simpa [LibRtspClient.SdpInfo.set, heq] using htrack)

lemma Words.add (h : Words sdp) {attr : LibRtspClient.SdpA}
    (hattr : ∀ track, attr = .control track → isWord track) : Words (sdp.add media attr) := by
  refine h.set fun track htrack => ?_
  rcases List.mem_append.mp htrack with hold | hnew
  · exact h media track hold
  · exact hattr track (List.mem_singleton.mp hnew).symm

lemma isWord_of_attrLine {track : Bytes} (h : LibRtspClient.attrLine line = .ok (.attr (.control track))) :
    isWord track := by
  rw [LibRtspClient.attrLine] at h
  by_cases hrtpmap : hasPrefix (bytes "a=rtpmap") line
  · rw [if_pos hrtpmap, LibRtspClient.rtpmapAttr] at h
    split at h
    · obtain ⟨_, -, h⟩ := bind_eq_ok.mp h
      cases h
    · obtain ⟨_, -, h⟩ := bind_eq_ok.mp h
      cases h
    · cases h
  rw [if_neg hrtpmap] at h
  by_cases hcontrol : hasPrefix (bytes "a=control") line
  · rw [if_pos hcontrol, LibRtspClient.controlAttr] at h
    split at h
    · next hscan =>
      obtain ⟨w, hstore, h⟩ := bind_eq_ok.mp h
      rw [LibRtspClient.store] at hstore
      split at hstore
      · cases hstore
        cases h
        exact isWord_of_scan hscan
      · cases hstore
    · cases h
  · rw [if_neg hcontrol] at h
    split at h <;> cases h

lemma Words.sdpAttrs (hw : Words sdp) {r : LibRtspClient.SdpInfo × Bytes}
    (h : LibRtspClient.sdpAttrs sdp media line = .ok (some r)) : Words r.1 := by
  induction hn : line.length using Nat.strong_induction_on generalizing sdp line with
  | h n ih =>
    subst hn
    rw [LibRtspClient.sdpAttrs] at h
    split at h
    · cases h
    · next c rest hend =>
      have hlt := length_lineEnd hend
      obtain ⟨attr, hattr, h⟩ := bind_eq_ok.mp h
      cases attr with
      | attr attr => exact ih _ hlt (hw.add fun track htrack => isWord_of_attrLine (htrack ▸ hattr)) h rfl
      | bandwidth => exact ih _ hlt hw h rfl
      | other =>
        cases h
        exact hw
      | bad => cases h

lemma Words.mediaLine (hw : Words sdp) {r : LibRtspClient.SdpInfo × Bytes}
    (h : LibRtspClient.mediaLine sdp media line = .ok (some r)) : Words r.1 := by
  rw [LibRtspClient.mediaLine] at h
  split at h
  · obtain ⟨_, -, h⟩ := bind_eq_ok.mp h
    refine Words.sdpAttrs (hw.set ?_) h
    exact hw media
  · obtain ⟨_, -, h⟩ := bind_eq_ok.mp h
    cases h
  · cases h

lemma Words.sdpLine (hw : Words sdp) {r : LibRtspClient.SdpInfo × Bytes}
    (h : LibRtspClient.sdpLine sdp line = .ok (some r)) : Words r.1 := by
  rw [LibRtspClient.sdpLine] at h
  split at h
  · exact hw.mediaLine h
  · split at h
    · exact hw.mediaLine h
    · split at h
      · split at h
        · cases h
        · cases h
          exact hw
      · cases h
        exact hw

lemma Words.parseSdpInfo (hw : Words sdp) {sdp' : LibRtspClient.SdpInfo}
    (h : LibRtspClient.parseSdpInfo sdp line = .ok (some sdp')) : Words sdp' := by
  induction hn : line.length using Nat.strong_induction_on generalizing sdp line with
  | h n ih =>
    subst hn
    rw [LibRtspClient.parseSdpInfo] at h
    split at h
    · cases h
    · cases h
    · next r last hline =>
      split at h
      · cases h
        exact hw.sdpLine hline
      · next next hnext =>
        exact ih _ ((length_getNextLine hnext).trans_le (LibRtspClient.length_sdpLine hline)) (hw.sdpLine hline) h rfl

lemma Words.isWord_track (hw : Words sdp) (media : MediaType) : isWord (LibRtspClient.track sdp media) := by
  rw [LibRtspClient.track]
  split
  · cases media <;> exact List.all_iff_forall_prop.mp (by decide +kernel)
  · next hne =>
    cases hfind : (sdp media).attrs.findSome? LibRtspClient.SdpA.control? with
    | none =>
      rw [hfind] at hne
      exact absurd rfl hne
    | some track =>
      obtain ⟨attr, hmem, hattr⟩ := List.exists_of_findSome?_eq_some hfind
      cases attr with
      | rtpmap => cases hattr
      | control track' =>
        cases hattr
        exact hw media _ hmem

-- The tracks of a description that the client has read are words, as `Asks` has them.
lemma isWord_track (h : LibRtspClient.parseSdpInfo LibRtspClient.allocSdpInfo line = .ok (some sdp))
    (media : MediaType) : isWord (LibRtspClient.track sdp media) :=
  (Words.parseSdpInfo (fun _ _ hmem => absurd hmem List.not_mem_nil) h).isWord_track media

end Tracks

def setUpSess (sdp : LibRtspClient.SdpInfo) : LibRtspClient.RtspSess where
  uri := chnUri (bytes "192.168.1.2") 0 0
  sessId := 0
  curCseq := 2
  todo := none
  handlingState := .init
  rtspState := .init
  intlvdMode := true
  supportedMethod _ := true
  sdpInfo := some sdp
  rtpRtcp _ := ⟨false, 0, 0, 0, 0⟩

def uriSdp : LibRtspClient.SdpInfo :=
  LibRtspClient.allocSdpInfo.add .audio (.control (bytes "rtsp://192.168.1.2/live/track1"))

def parseEnv : ParseEnv := ⟨fun _ => false, fun _ => false, true, true, true, true, true⟩

lemma asks_setUpSess {sdp : LibRtspClient.SdpInfo} (hsdp : ∀ media, isWord (LibRtspClient.track sdp media))
    (a : Asked) : Asks (setUpSess sdp) parseEnv a where
  uri := ⟨bytes "192.168.1.2", 0, 0, rfl, by decide +kernel, by decide +kernel, by decide +kernel, by decide,
    by decide⟩
  length := (by decide +kernel : (chnUri (bytes "192.168.1.2") 0 0).length < 200)
  cseq := (by decide : (2 : UInt32).toNat < 2 ^ 31)
  known h := absurd rfl h
  track media _ := ⟨_, rfl, hsdp media⟩
  allocated := ⟨rfl, rfl, rfl, rfl⟩

lemma isWord_tracks : (∀ media, isWord (LibRtspClient.track LibRtspClient.allocSdpInfo media))
    ∧ ∀ media, isWord (LibRtspClient.track uriSdp media) := by
  constructor <;> intro media <;> cases media <;> decide +kernel

lemma takes_uri : Takes (setUpSess uriSdp) parseEnv .audio := by
  intro sdp hsdp
  obtain rfl := Option.some.inj hsdp
  have huri : isUri (LibRtspClient.track uriSdp .audio) = true := by decide +kernel
  have hchn : sscanf Handling.chnFormat ((LibRtspClient.track uriSdp .audio).take (LibRtspClient.maxUriSz - 1)) = [] := by
    decide +kernel
  rw [if_pos huri]
  refine .track (n := 1) (fun _ _ h => nomatch hchn.symm.trans h) ?_ ?_
  · decide +kernel
  · decide +kernel

theorem agree_setup : Agree (setUpSess LibRtspClient.allocSdpInfo) parseEnv (.setup .video)
    ∧ Agree (setUpSess uriSdp) parseEnv (.setup .audio) := by
  constructor
  · refine (messages_agree_iff (asks_setUpSess isWord_tracks.1 _)).mpr ⟨nofun, ?_⟩
    rintro media hmedia sdp hsdp
    obtain rfl : MediaType.video = media := by injection hmedia
    obtain rfl := Option.some.inj hsdp
    rw [if_neg (by decide +kernel)]
  · refine (messages_agree_iff (asks_setUpSess isWord_tracks.2 _)).mpr ⟨nofun, ?_⟩
    rintro media hmedia
    obtain rfl : MediaType.audio = media := by injection hmedia
    exact takes_uri

theorem setup_audio_and_describe_disagree : ¬ Agree (setUpSess LibRtspClient.allocSdpInfo) parseEnv (.setup .audio)
    ∧ ¬ Agree (setUpSess LibRtspClient.allocSdpInfo) parseEnv .describe := by
  constructor
  · intro hagree
    have htakes := takes_of_agree (asks_setUpSess isWord_tracks.1 _) hagree _ rfl
    rw [if_neg (by decide +kernel)] at htakes
    exact nomatch htakes
  · exact not_agree_describe (asks_setUpSess isWord_tracks.1 _)

end SimpleCode.LibRtsp
