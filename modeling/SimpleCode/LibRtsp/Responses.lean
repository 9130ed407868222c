import SimpleCode.LibRtsp.Requests
import SimpleCode.LibRtspClient.Parser

set_option autoImplicit false

namespace SimpleCode.LibRtsp

open Foundations Scan
open LibRtspServer (Handling ParseEnv MethodEnv respText respLines)
open LibRtspClient (MediaType)
open LibRtspClient.RtspResp (isContentType)

section Handlers

variable {s : LibRtspClient.RtspSess} {a : Asked} {p : Handling} {menv : MethodEnv}
  {r : LibRtspServer.RtspSess} {m : LibRtspServer.MediaType}

structure Handled (s : LibRtspClient.RtspSess) (a : Asked) (h : Handling) : Prop where
  state : h.state = .handled
  method : h.req.method = some a.method
  cseq : h.resp.cseq = s.curCseq.toNat
  sessId : h.resp.sessId < 2 ^ 64
  ver : h.resp.ver = some rtspVersion
  status : h.resp.statusCode = .ok
  server : h.resp.server = some (bytes "Zmodo-RTSP-Server")
  publicHdr : a = .options → h.resp.publicHdr = some LibRtspServer.supportedMethods ∨ h.resp.publicHdr = none
  sdpInfo : a = .describe → ∃ sdp, h.resp.sdpInfo = some sdp
  transport : ∀ media, a = .setup media → h.intlvdMode = s.intlvdMode
    ∧ if s.intlvdMode then h.resp.transport.rtpChn = (transportPair s media).1
        ∧ h.resp.transport.rtcpChn = (transportPair s media).2
      else h.resp.transport.rtpCliPort = (transportPair s media).1
        ∧ h.resp.transport.rtcpCliPort = (transportPair s media).2
        ∧ h.resp.transport.rtpSrvPort < 2 ^ 16 ∧ h.resp.transport.rtcpSrvPort < 2 ^ 16

-- A new session id is the only thing that can change before the transport is set up.
lemma Parsed.newSessId {t : LibRtspServer.RtspSess} (h : Parsed s a .ok m t.toHandling) :
    (t.newSessId menv).resp.sessId < 2 ^ 64
      ∧ (t.newSessId menv).toHandling = { t.toHandling with resp.sessId := (t.newSessId menv).resp.sessId } := by
  rw [LibRtspServer.RtspSess.newSessId]
  split
  · exact ⟨UInt64.toNat_lt _, rfl⟩
  · exact ⟨h.sessId.2 ▸ UInt64.toNat_lt _, rfl⟩

lemma Parsed.createRtpSess {t : LibRtspServer.RtspSess} {media : MediaType}
    (h : Parsed s (.setup media) .ok m t.toHandling) (hok : (t.createRtpSess menv).2 = true) :
    Handled s (.setup media) { (t.createRtpSess menv).1.toHandling with state := .handled } := by
  obtain ⟨hid, hnew⟩ := @Parsed.newSessId s _ menv m t h
  obtain ⟨hmode, hpair⟩ := h.transport media rfl
  rw [LibRtspServer.RtspSess.createRtpSess] at hok ⊢
  set u := t.newSessId menv
  have hmethod : u.req.method = some .setup := by rw [hnew]; exact h.method
  have hcseq : u.resp.cseq = s.curCseq.toNat := by rw [hnew]; exact h.cseq.2
  have hver : u.resp.ver = some rtspVersion := by rw [hnew]; exact h.ver
  have hstatus : u.resp.statusCode = .ok := by rw [hnew]; exact h.status
  have hserver : u.resp.server = some (bytes "Zmodo-RTSP-Server") := by rw [hnew]; exact h.server
  have humode : u.intlvdMode = s.intlvdMode := by rw [hnew]; exact hmode
  have hreq : u.req.transport = t.req.transport := by rw [hnew]
  rw [← hreq] at hpair
  cases hintlvd : s.intlvdMode with
  | true =>
    rw [hintlvd] at humode hpair
    simp only [humode, if_true]
    refine ⟨rfl, hmethod, hcseq, hid, hver, hstatus, hserver, nofun, nofun, ?_⟩
    rintro media' hmedia
    obtain rfl : media = media' := by injection hmedia
    rw [hintlvd]
    exact ⟨humode, hpair⟩
  | false =>
    rw [hintlvd] at humode hpair
    simp only [humode, Bool.false_eq_true, if_false, LibRtspServer.RtspSess.setupNonIntlvdMode] at hok ⊢
    cases hports : menv.srvPorts with
    | none =>
      rw [hports] at hok
      exact nomatch hok
    | some ports =>
      refine ⟨rfl, hmethod, hcseq, hid, hver, hstatus, hserver, nofun, nofun, ?_⟩
      rintro media' hmedia
      obtain rfl : media = media' := by injection hmedia
      rw [hintlvd]
      exact ⟨rfl, hpair.1, hpair.2, UInt16.toNat_lt _, UInt16.toNat_lt _⟩

lemma Parsed.handled (h : Parsed s a .ok m p) {t : LibRtspServer.RtspSess} (ht : t.toHandling = p)
    (hrun : t.runRtspStateMachine menv = .ok r) (hstate : r.state = .handled ∨ r.state = .error)
    (hok : r.resp.statusCode = .ok) : Handled s a r.toHandling := by
  subst ht
  have hid : t.resp.sessId < 2 ^ 64 := h.sessId.2 ▸ UInt64.toNat_lt _
  rw [LibRtspServer.RtspSess.runRtspStateMachine, if_neg fun hne => hne.1 (h.state rfl), h.method] at hrun
  cases a with
  | options =>
    obtain rfl := Except.ok.inj hrun
    refine ⟨rfl, h.method, h.cseq.2, hid, h.ver, h.status, h.server, fun _ => ?_, nofun, nofun⟩
    cases hdup : menv.dupPublic with
    | true => exact .inl (if_pos hdup)
    | false => exact .inr (if_neg (by rw [hdup]; exact Bool.false_ne_true))
  | describe =>
    obtain ⟨state, sdpInfo, hdescribe, hcases⟩ := t.handleMethodDescribe_spec menv
    obtain rfl := Except.ok.inj (hdescribe.symm.trans hrun)
    rcases hcases with rfl | rfl | ⟨rfl, hsome⟩
    · exact absurd hstate nofun
    · exact absurd hstate nofun
    · exact ⟨rfl, h.method, h.cseq.2, hid, h.ver, h.status, h.server, nofun,
        fun _ => Option.isSome_iff_exists.mp hsome, nofun⟩
  | setup media =>
    obtain rfl := Except.ok.inj hrun
    change (t.handleMethodSetup menv).state = _ ∨ (t.handleMethodSetup menv).state = _ at hstate
    change Handled s _ (t.handleMethodSetup menv).toHandling
    rw [LibRtspServer.RtspSess.handleMethodSetup] at hstate ⊢
    by_cases hcreated : (t.createRtpSess menv).2 = true
    · rw [if_pos hcreated]
      exact h.createRtpSess hcreated
    · rw [if_neg hcreated] at hstate
      exact absurd hstate nofun
  | play =>
    obtain rfl := Except.ok.inj hrun
    change (t.handleMethodPlay).resp.statusCode = _ at hok
    change Handled s _ (t.handleMethodPlay).toHandling
    rw [LibRtspServer.RtspSess.handleMethodPlay] at hok ⊢
    split at hok
    · exact nomatch hok
    · next hinit =>
      rw [if_neg hinit]
      exact ⟨rfl, h.method, h.cseq.2, hid, h.ver, h.status, h.server, nofun, nofun, nofun⟩
  | teardown =>
    obtain rfl := Except.ok.inj hrun
    exact ⟨rfl, h.method, h.cseq.2, hid, h.ver, h.status, h.server, nofun, nofun, nofun⟩

end Handlers

section ResponseLines

open LibRtspClient (RtspResp)

structure RespLine where
  line : Bytes
  effect : RtspResp → RtspResp
  cseq : Bool
  isLine : isLine line
  ne : line ≠ []
  content : ∀ rest, isContentType (line ++ (crlf ++ rest)) = false
  respHdr : ∀ (r : RtspResp) rest, r.respHdr (line ++ (crlf ++ rest)) = .ok (effect r, true)
  found : ∀ rest, hasPrefixCase (bytes "CSeq") (line ++ (crlf ++ rest)) = cseq

variable {r r' : RtspResp} {line next : Bytes} {found : Bool}

lemma respHdrs_cons (hcontent : isContentType line = false) (hstep : r.respHdr line = .ok (r', true))
    (hnext : getNextLine line = some next) :
    r.respHdrs found line = r'.respHdrs (found || hasPrefixCase (bytes "CSeq") line) next := by
  rw [RtspResp.respHdrs, hcontent, if_neg Bool.false_ne_true, hstep, ok_bind]
  simp only [if_true]
  split
  · next hnone => cases hnone.symm.trans hnext
  · next line' hsome =>
    obtain rfl := Option.some.inj (hsome.symm.trans hnext)
    rfl

lemma respHdrs_last (hcontent : isContentType line = false) (hstep : r.respHdr line = .ok (r', true))
    (hnext : getNextLine line = none) :
    r.respHdrs found line = .ok (r', found || hasPrefixCase (bytes "CSeq") line) := by
  rw [RtspResp.respHdrs, hcontent, if_neg Bool.false_ne_true, hstep, ok_bind]
  simp only [if_true]
  split
  · rfl
  · next line' hsome => cases hsome.symm.trans hnext

lemma respHdrs_lines (hdrs : List RespLine) (hne : hdrs ≠ []) (r : RtspResp) (found : Bool) :
    r.respHdrs found (joined (hdrs.map RespLine.line) crlf)
      = .ok (hdrs.foldl (fun r x => x.effect r) r, found || hdrs.any RespLine.cseq) := by
  induction hdrs generalizing r found with
  | nil => exact absurd rfl hne
  | cons x hdrs ih =>
    cases hdrs with
    | nil =>
      rw [List.map_singleton, joined_cons, respHdrs_last (x.content _) (x.respHdr r _), x.found]
      · simp only [List.foldl_cons, List.foldl_nil, List.any_cons, List.any_nil, Bool.or_false]
      · exact getNextLine_last x.isLine []
    | cons y hdrs =>
      have hnext : getNextLine (x.line ++ (crlf ++ joined ((y :: hdrs).map RespLine.line) crlf))
          = some (joined ((y :: hdrs).map RespLine.line) crlf) := by
        rw [← joined_cons, List.map_cons, getNextLine_joined x.isLine y.isLine y.ne]
      rw [List.map_cons, joined_cons, respHdrs_cons (x.content _) (x.respHdr r _) hnext, x.found,
        ih (List.cons_ne_nil y hdrs), Bool.or_assoc]
      rfl

lemma respHdrs_append (hdrs : List RespLine) {l : Bytes} (hl : isLine l) (hlne : l ≠ []) (ls : List Bytes)
    (rest : Bytes) (r : RtspResp) (found : Bool) :
    r.respHdrs found (joined (hdrs.map RespLine.line ++ l :: ls) rest)
      = (hdrs.foldl (fun r x => x.effect r) r).respHdrs (found || hdrs.any RespLine.cseq)
        (joined (l :: ls) rest) := by
  induction hdrs generalizing r found with
  | nil =>
    rw [List.any_nil, Bool.or_false]
    rfl
  | cons x hdrs ih =>
    have hnext : getNextLine (x.line ++ (crlf ++ joined (hdrs.map RespLine.line ++ l :: ls) rest))
        = some (joined (hdrs.map RespLine.line ++ l :: ls) rest) := by
      cases hdrs with
      | nil => rw [← joined_cons, List.map_nil, List.nil_append, getNextLine_joined x.isLine hl hlne]
      | cons y hdrs =>
        rw [← joined_cons, List.map_cons, List.cons_append, getNextLine_joined x.isLine y.isLine y.ne]
    rw [List.map_cons, List.cons_append, joined_cons, respHdrs_cons (x.content _) (x.respHdr r _) hnext,
      x.found, ih, List.any_cons, Bool.or_assoc]
    rfl

end ResponseLines

section Lines

open LibRtspClient (RtspResp)

lemma hasPrefixCase_first {tag l : Bytes} (h : tag.map toLower <+: l.map toLower) (v rest : Bytes) :
    hasPrefixCase tag (l ++ v ++ (crlf ++ rest)) = true := by
  rw [List.append_assoc]
  exact hasPrefixCase_append h _

lemma hasPrefixCase_other {tag l : Bytes}
    (h : ¬ tag.map toLower <+: l.map toLower ∧ ¬ l.map toLower <+: tag.map toLower) (v rest : Bytes) :
    hasPrefixCase tag (l ++ v ++ (crlf ++ rest)) = false := by
  rw [List.append_assoc]
  exact hasPrefixCase_ne h _

example : hasPrefixCase (bytes "CSeq") (bytes "CSEQ: 1") = true := by decide +kernel

lemma skip_name (name v rest : Bytes) :
    LibRtspClient.skip name.length (name ++ v ++ (crlf ++ rest)) = .ok (v ++ (crlf ++ rest)) := by
  rw [LibRtspClient.skip, List.append_assoc, if_pos, List.drop_left]
  rw [List.length_append]
  exact Nat.le_add_right _ _

lemma sscanf_line {v : Bytes} (hline : isLine v) (hne : v ≠ []) (rest : Bytes) :
    sscanf [.noneOf crlf] (v ++ (crlf ++ rest)) = [.text v] := by
  refine sscanf_noneOf [] ?_ hne ?_
  · intro c hc
    rw [crlf, List.mem_pair, not_or]
    exact hline c hc
  · rintro c hc
    obtain rfl : (13 : UInt8) = c := Option.some.inj hc
    decide

-- The names of the headers, so that each comparison is made once.
lemma respNames_isLine : ∀ l ∈ [bytes "CSeq: ", bytes "Date: ", bytes "Session: ", bytes "Transport: "],
    isLine l := by
  decide +kernel

lemma respNames_first : ∀ p ∈ [(bytes "CSeq", bytes "CSeq: "), (bytes "Date", bytes "Date: "),
      (bytes "Session", bytes "Session: "), (bytes "Transport", bytes "Transport: ")],
    p.1.map toLower <+: p.2.map toLower := by
  decide +kernel

lemma respNames_other : ∀ p ∈ [(bytes "Content-Type", bytes "CSeq: "), (bytes "Content-Type", bytes "Date: "),
      (bytes "Content-Type", bytes "Session: "), (bytes "Content-Type", bytes "Transport: "),
      (bytes "CSeq", bytes "Date: "), (bytes "CSeq", bytes "Session: "), (bytes "CSeq", bytes "Transport: "),
      (bytes "Date", bytes "Session: ")],
    ¬ p.1.map toLower <+: p.2.map toLower ∧ ¬ p.2.map toLower <+: p.1.map toLower := by
  decide +kernel

lemma cseqRespLine_isLine (n : ℕ) : isLine (bytes "CSeq: " ++ dec n) :=
  isLine.append (respNames_isLine (bytes "CSeq: ") (by simp)) (isLine_dec _)

lemma cseqRespLine_ne (n : ℕ) : bytes "CSeq: " ++ dec n ≠ [] := append_ne (by decide)

lemma cseqRespLine_content (n : ℕ) (rest : Bytes) :
    isContentType (bytes "CSeq: " ++ dec n ++ (crlf ++ rest)) = false :=
  hasPrefixCase_other (respNames_other (bytes "Content-Type", bytes "CSeq: ") (by simp)) _ rest

lemma cseqRespLine_respHdr {n : ℕ} (hn : n < 2 ^ 32) (r : RtspResp) (rest : Bytes) :
    r.respHdr (bytes "CSeq: " ++ dec n ++ (crlf ++ rest)) = .ok ({ r with cseq := n }, true) := by
  rw [RtspResp.respHdr, hasPrefixCase_first (respNames_first (bytes "CSeq", bytes "CSeq: ") (by simp)),
    if_pos rfl, RtspResp.cseqHdr, skip_name, ok_bind, sscanf_int [] n (not_isDigit_crlf rest)]
  exact congrArg (fun n => Except.ok ({ r with cseq := n }, true)) (uint_natCast hn)

lemma cseqRespLine_found (n : ℕ) (rest : Bytes) :
    hasPrefixCase (bytes "CSeq") (bytes "CSeq: " ++ dec n ++ (crlf ++ rest)) = true :=
  hasPrefixCase_first (respNames_first (bytes "CSeq", bytes "CSeq: ") (by simp)) _ rest

def cseqRespLine (n : ℕ) (hn : n < 2 ^ 32) : RespLine where
  line := bytes "CSeq: " ++ dec n
  effect r := { r with cseq := n }
  cseq := true
  isLine := cseqRespLine_isLine n
  ne := cseqRespLine_ne n
  content rest := cseqRespLine_content n rest
  respHdr r rest := cseqRespLine_respHdr hn r rest
  found rest := cseqRespLine_found n rest

lemma length_dec {n : ℕ} (hn : n < 2 ^ 32) : (dec n).length ≤ 10 := by
  rw [dec]
  split
  · exact Nat.one_le_ofNat
  · rw [List.length_reverse, List.length_map, Nat.digits_length_le_iff (by decide)]
    exact hn.trans (by decide)

lemma length_gmt (tm : Tm) : tm.gmt.length < 64 := by
  have hday : ∀ i : Fin 7, (Tm.wdays.getD i []).length = 3 := by decide +kernel
  have hmonth : ∀ i : Fin 12, (Tm.months.getD i []).length = 3 := by decide +kernel
  have hseps : (bytes ", ").length = 2 ∧ (bytes " ").length = 1 ∧ (bytes ":").length = 1
      ∧ (bytes " GMT").length = 4 := by decide +kernel
  have htwo : ∀ n, (Tm.two n).length = 2 := fun _ => rfl
  obtain ⟨hcomma, hspace, hcolon, hgmt⟩ := hseps
  have hyear := length_dec tm.year.isLt
  rw [Tm.gmt]
  simp only [List.length_append, hday, hmonth, hcomma, hspace, hcolon, hgmt, htwo]
  omega

lemma gmt_ne_nil (tm : Tm) : tm.gmt ≠ [] := by
  have hcomma : bytes ", " ≠ [] := by decide
  rw [Tm.gmt]
  simp only [List.append_assoc]
  exact List.append_ne_nil_of_right_ne_nil _ (append_ne hcomma)

lemma sscanf_store {v : Bytes} {sz : ℕ} (hline : isLine v) (hne : v ≠ []) (hsz : v.length < sz)
    (rest : Bytes) :
    sscanf [.noneOf crlf] (v ++ (crlf ++ rest)) = [.text v] ∧ LibRtspClient.store sz v = .ok v :=
  ⟨sscanf_line hline hne rest, if_pos hsz⟩

lemma dateRespLine_isLine (tm : Tm) : isLine (bytes "Date: " ++ tm.gmt) :=
  isLine.append (respNames_isLine (bytes "Date: ") (by simp)) (isLine_gmt tm)

lemma dateRespLine_ne (tm : Tm) : bytes "Date: " ++ tm.gmt ≠ [] := append_ne (by decide)

lemma dateRespLine_content (tm : Tm) (rest : Bytes) :
    isContentType (bytes "Date: " ++ tm.gmt ++ (crlf ++ rest)) = false :=
  hasPrefixCase_other (respNames_other (bytes "Content-Type", bytes "Date: ") (by simp)) _ rest

lemma dateRespLine_respHdr (tm : Tm) (r : RtspResp) (rest : Bytes) :
    r.respHdr (bytes "Date: " ++ tm.gmt ++ (crlf ++ rest)) = .ok ({ r with date := tm.gmt }, true) := by
  obtain ⟨hscan, hstore⟩ := sscanf_store (isLine_gmt tm) (gmt_ne_nil tm) (length_gmt tm) rest
  rw [RtspResp.respHdr, hasPrefixCase_other (respNames_other (bytes "CSeq", bytes "Date: ") (by simp)),
    if_neg Bool.false_ne_true, hasPrefixCase_first (respNames_first (bytes "Date", bytes "Date: ") (by simp)),
    if_pos rfl, RtspResp.dateHdr, skip_name, ok_bind, hscan]
  simp only [hstore, ok_bind]

lemma dateRespLine_found (tm : Tm) (rest : Bytes) :
    hasPrefixCase (bytes "CSeq") (bytes "Date: " ++ tm.gmt ++ (crlf ++ rest)) = false :=
  hasPrefixCase_other (respNames_other (bytes "CSeq", bytes "Date: ") (by simp)) _ rest

def dateRespLine (tm : Tm) : RespLine where
  line := bytes "Date: " ++ tm.gmt
  effect r := { r with date := tm.gmt }
  cseq := false
  isLine := dateRespLine_isLine tm
  ne := dateRespLine_ne tm
  content rest := dateRespLine_content tm rest
  respHdr r rest := dateRespLine_respHdr tm r rest
  found rest := dateRespLine_found tm rest

def publicRespLine (v : Bytes) (hline : isLine v) (hne : v ≠ []) (hsz : v.length < 128) : RespLine where
  line := bytes "Public: " ++ v
  effect r := { r with publicHdr := v }
  cseq := false
  isLine := isLine.append (List.all_iff_forall_prop.mp (by decide +kernel)) hline
  ne := append_ne (by decide)
  content rest := hasPrefixCase_other (by decide +kernel) _ rest
  respHdr r rest := by
    obtain ⟨hscan, hstore⟩ := sscanf_store hline hne hsz rest
    rw [RtspResp.respHdr, hasPrefixCase_other (by decide +kernel), if_neg Bool.false_ne_true,
      hasPrefixCase_other (by decide +kernel), if_neg Bool.false_ne_true,
      hasPrefixCase_other (by decide +kernel), if_neg Bool.false_ne_true,
      hasPrefixCase_first (by decide +kernel), if_pos rfl, RtspResp.publicLine, skip_name, ok_bind, hscan]
    simp only [hstore, ok_bind]
  found rest := hasPrefixCase_other (by decide +kernel) _ rest

lemma sessionRespLine_isLine (id : ℕ) : isLine (bytes "Session: " ++ dec id) :=
  isLine.append (respNames_isLine (bytes "Session: ") (by simp)) (isLine_dec _)

lemma sessionRespLine_ne (id : ℕ) : bytes "Session: " ++ dec id ≠ [] := append_ne (by decide)

lemma sessionRespLine_content (id : ℕ) (rest : Bytes) :
    isContentType (bytes "Session: " ++ dec id ++ (crlf ++ rest)) = false :=
  hasPrefixCase_other (respNames_other (bytes "Content-Type", bytes "Session: ") (by simp)) _ rest

lemma sessionRespLine_respHdr {id : ℕ} (hid : id < 2 ^ 64) (r : RtspResp) (rest : Bytes) :
    r.respHdr (bytes "Session: " ++ dec id ++ (crlf ++ rest)) = .ok ({ r with sessId := id }, true) := by
  rw [RtspResp.respHdr, hasPrefixCase_other (respNames_other (bytes "CSeq", bytes "Session: ") (by simp)),
    if_neg Bool.false_ne_true,
    hasPrefixCase_other (respNames_other (bytes "Date", bytes "Session: ") (by simp)), if_neg Bool.false_ne_true,
    hasPrefixCase_first (respNames_first (bytes "Session", bytes "Session: ") (by simp)), if_pos rfl,
    RtspResp.sessionHdr, skip_name, ok_bind, sscanf_int [] id (not_isDigit_crlf rest)]
  exact congrArg (fun id => Except.ok ({ r with sessId := id }, true)) (ulong_natCast hid)

lemma sessionRespLine_found (id : ℕ) (rest : Bytes) :
    hasPrefixCase (bytes "CSeq") (bytes "Session: " ++ dec id ++ (crlf ++ rest)) = false :=
  hasPrefixCase_other (respNames_other (bytes "CSeq", bytes "Session: ") (by simp)) _ rest

def sessionRespLine (id : ℕ) (hid : id < 2 ^ 64) : RespLine where
  line := bytes "Session: " ++ dec id
  effect r := { r with sessId := id }
  cseq := false
  isLine := sessionRespLine_isLine id
  ne := sessionRespLine_ne id
  content rest := sessionRespLine_content id rest
  respHdr r rest := sessionRespLine_respHdr hid r rest
  found rest := sessionRespLine_found id rest

-- The client does not look at this header.
def serverRespLine : RespLine where
  line := bytes "Server: " ++ bytes "Zmodo-RTSP-Server"
  effect := id
  cseq := false
  isLine := List.all_iff_forall_prop.mp (by decide +kernel)
  ne := append_ne (by decide)
  content rest := hasPrefixCase_other (by decide +kernel) _ rest
  respHdr r rest := by
    have hne : ∀ tag ∈ [bytes "CSeq", bytes "Date", bytes "Session", bytes "Public", bytes "Transport"],
        hasPrefixCase tag (bytes "Server: " ++ bytes "Zmodo-RTSP-Server" ++ (crlf ++ rest)) = false := by
      have hnames : ∀ tag ∈ [bytes "CSeq", bytes "Date", bytes "Session", bytes "Public",
          bytes "Transport"], ¬ tag.map toLower <+: (bytes "Server: ").map toLower
            ∧ ¬ (bytes "Server: ").map toLower <+: tag.map toLower := by decide +kernel
      exact fun tag htag => hasPrefixCase_other (hnames tag htag) _ rest
    rw [RtspResp.respHdr, hne _ (by simp), hne _ (by simp), hne _ (by simp), hne _ (by simp),
      hne _ (by simp)]
    rfl
  found rest := hasPrefixCase_other (by decide +kernel) _ rest

end Lines

section Transport

open LibRtspClient (RtspResp)

variable {r : RtspResp}

lemma respField_tcp (rest : Bytes) :
    r.transportField (bytes "RTP/AVP/TCP" ++ rest) = ({ r with transport.intlvdMode := true }, true) :=
  if_pos (hasPrefix_append _ rest)

lemma respField_udp (rest : Bytes) :
    r.transportField (bytes "RTP/AVP/UDP" ++ rest) = ({ r with transport.intlvdMode := false }, true) := by
  rw [RtspResp.transportField, hasPrefix_ne (by decide +kernel), if_neg Bool.false_ne_true,
    if_pos (.inl (hasPrefix_append _ rest))]

lemma respField_unicast (rest : Bytes) : r.transportField (bytes "unicast" ++ rest) = (r, true) := by
  have hne : ∀ tag ∈ [bytes "RTP/AVP/TCP", bytes "RTP/AVP/UDP", bytes "RTP/AVP"],
      ¬ tag <+: bytes "unicast" ∧ ¬ bytes "unicast" <+: tag := by decide +kernel
  rw [RtspResp.transportField, hasPrefix_ne (hne _ (by simp)), hasPrefix_ne (hne _ (by simp)),
    hasPrefix_ne (hne _ (by simp)), if_pos (hasPrefix_append _ rest)]
  rfl

lemma hasPrefix_name {tag name : Bytes} (h : tag <+: name) (rest : Bytes) : hasPrefix tag (name ++ rest) :=
  hasPrefix_iff.mpr (h.trans (List.prefix_append name rest))

lemma respField_interleaved (hmode : r.transport.intlvdMode = true) {a b : ℕ} (ha : a < 2 ^ 7)
    (hb : b < 2 ^ 7) (rest : Bytes) :
    r.transportField (bytes "interleaved=" ++ (dec a ++ 45 :: (dec b ++ (crlf ++ rest)))) = ({ r with
      transport.rtpChn := a
      transport.rtcpChn := b }, true) := by
  have hne : ∀ tag ∈ [bytes "RTP/AVP/TCP", bytes "RTP/AVP/UDP", bytes "RTP/AVP", bytes "unicast",
      bytes "mode", bytes "client_port", bytes "server_port"],
      ¬ tag <+: bytes "interleaved=" ∧ ¬ bytes "interleaved=" <+: tag := by
    decide +kernel
  rw [RtspResp.transportField, hasPrefix_ne (hne _ (by simp)), hasPrefix_ne (hne _ (by simp)),
    hasPrefix_ne (hne _ (by simp)), hasPrefix_ne (hne _ (by simp)), hasPrefix_ne (hne _ (by simp)),
    hasPrefix_ne (hne _ (by simp)), hasPrefix_ne (hne _ (by simp)), hasPrefix_name (by decide +kernel),
    RtspResp.interleaved, if_pos hmode, RtspResp.portPair, sscanf_pair _ a b (not_isDigit_crlf rest)]
  have hca : char a = a := char_of_lt (by omega) (by omega)
  have hcb : char b = b := char_of_lt (by omega) (by omega)
  simp only [Bool.false_eq_true, or_self, if_false, if_true, hca, hcb]

lemma respField_clientPort (hmode : r.transport.intlvdMode = false) {a b : ℕ} (ha : a < 2 ^ 16)
    (hb : b < 2 ^ 16) {rest : Bytes} (hrest : ∀ c ∈ rest.head?, isDigit c = false) :
    r.transportField (bytes "client_port=" ++ (dec a ++ 45 :: (dec b ++ rest))) = ({ r with
      transport.rtpCliPort := a
      transport.rtcpCliPort := b }, true) := by
  have hne : ∀ tag ∈ [bytes "RTP/AVP/TCP", bytes "RTP/AVP/UDP", bytes "RTP/AVP", bytes "unicast",
      bytes "mode"], ¬ tag <+: bytes "client_port=" ∧ ¬ bytes "client_port=" <+: tag := by
    decide +kernel
  rw [RtspResp.transportField, hasPrefix_ne (hne _ (by simp)), hasPrefix_ne (hne _ (by simp)),
    hasPrefix_ne (hne _ (by simp)), hasPrefix_ne (hne _ (by simp)), hasPrefix_ne (hne _ (by simp)),
    hasPrefix_name (by decide +kernel), RtspResp.clientPort, hmode, RtspResp.portPair,
    sscanf_pair _ a b hrest]
  simp only [Bool.false_eq_true, or_self, if_false, if_true, ushort_natCast ha, ushort_natCast hb]

lemma respField_serverPort (hmode : r.transport.intlvdMode = false) {a b : ℕ} (ha : a < 2 ^ 16)
    (hb : b < 2 ^ 16) (rest : Bytes) :
    r.transportField (bytes "server_port=" ++ (dec a ++ 45 :: (dec b ++ (crlf ++ rest)))) = ({ r with
      transport.rtpSrvPort := a
      transport.rtcpSrvPort := b }, true) := by
  have hne : ∀ tag ∈ [bytes "RTP/AVP/TCP", bytes "RTP/AVP/UDP", bytes "RTP/AVP", bytes "unicast",
      bytes "mode", bytes "client_port"],
      ¬ tag <+: bytes "server_port=" ∧ ¬ bytes "server_port=" <+: tag := by
    decide +kernel
  rw [RtspResp.transportField, hasPrefix_ne (hne _ (by simp)), hasPrefix_ne (hne _ (by simp)),
    hasPrefix_ne (hne _ (by simp)), hasPrefix_ne (hne _ (by simp)), hasPrefix_ne (hne _ (by simp)),
    hasPrefix_ne (hne _ (by simp)), hasPrefix_name (by decide +kernel), RtspResp.serverPort, hmode,
    RtspResp.portPair, sscanf_pair _ a b (not_isDigit_crlf rest)]
  simp only [Bool.false_eq_true, or_self, if_false, if_true, ushort_natCast ha, ushort_natCast hb]

def respValue (h : Handling) (a b : ℕ) : Bytes :=
  if h.intlvdMode then transportValue true a b
  else transportValue false a b ++ 59 :: (bytes "server_port=" ++ (dec h.resp.transport.rtpSrvPort
    ++ 45 :: dec h.resp.transport.rtcpSrvPort))

def respTransport (r : RtspResp) (h : Handling) (a b : ℕ) : RtspResp :=
  if h.intlvdMode then { r with
    transport.intlvdMode := true
    transport.rtpChn := a
    transport.rtcpChn := b }
  else { r with
    transport.intlvdMode := false
    transport.rtpCliPort := a
    transport.rtcpCliPort := b
    transport.rtpSrvPort := h.resp.transport.rtpSrvPort
    transport.rtcpSrvPort := h.resp.transport.rtcpSrvPort }

lemma isField_pair (a b : ℕ) : isField (dec a ++ 45 :: dec b) :=
  (isField_dec a).append fun c hc => (List.mem_cons.mp hc).elim (fun h => h ▸ by decide) (isField_dec b c)

lemma respFields_value {h : Handling} {a b : ℕ}
    (hpair : if h.intlvdMode then a < 2 ^ 7 ∧ b < 2 ^ 7
      else (a < 2 ^ 16 ∧ b < 2 ^ 16) ∧ h.resp.transport.rtpSrvPort < 2 ^ 16
        ∧ h.resp.transport.rtcpSrvPort < 2 ^ 16) (rest : Bytes) :
    r.transportFields (respValue h a b ++ (crlf ++ rest)) = .ok (respTransport r h a b, true) := by
  have hunicast : isField (bytes "unicast") ∧ bytes "unicast" ≠ [] :=
      ⟨List.all_iff_forall_prop.mp (by decide +kernel), by decide +kernel⟩
  rw [RtspResp.transportFields, respValue, respTransport]
  cases hmode : h.intlvdMode with
  | true =>
    rw [hmode, if_pos rfl] at hpair
    have htcp : isField (bytes "RTP/AVP/TCP") ∧ bytes "RTP/AVP/TCP" ≠ [] :=
      ⟨List.all_iff_forall_prop.mp (by decide +kernel), by decide +kernel⟩
    have hname : isField (bytes "interleaved=") ∧ bytes "interleaved=" ≠ [] :=
      ⟨List.all_iff_forall_prop.mp (by decide +kernel), by decide +kernel⟩
    simp only [transportValue, if_true, List.append_assoc, List.cons_append]
    rw [fields_semicolon htcp.1 htcp.2 hunicast.1 hunicast.2 (respField_tcp _),
      fields_semicolon hunicast.1 hunicast.2 hname.1 hname.2 (respField_unicast _)]
    have hlast := @fields_last _ rest _ RtspResp.transportField { r with transport.intlvdMode := true } _
      (hname.1.append (isField_pair a b)) (List.append_ne_nil_of_left_ne_nil hname.2 _) (by
        simp only [List.append_assoc, List.cons_append]
        exact respField_interleaved rfl hpair.1 hpair.2 rest)
    simp only [List.append_assoc, List.cons_append] at hlast
    exact hlast
  | false =>
    rw [hmode, if_neg Bool.false_ne_true] at hpair
    obtain ⟨hcli, hsrv⟩ := hpair
    have hudp : isField (bytes "RTP/AVP/UDP") ∧ bytes "RTP/AVP/UDP" ≠ [] :=
      ⟨List.all_iff_forall_prop.mp (by decide +kernel), by decide +kernel⟩
    have hname : isField (bytes "client_port=") ∧ bytes "client_port=" ≠ [] :=
      ⟨List.all_iff_forall_prop.mp (by decide +kernel), by decide +kernel⟩
    have hsrvName : isField (bytes "server_port=") ∧ bytes "server_port=" ≠ [] :=
      ⟨List.all_iff_forall_prop.mp (by decide +kernel), by decide +kernel⟩
    have hsemi : ∀ (s : Bytes), ∀ c ∈ ((59 : UInt8) :: s).head?, isDigit c = false := by
      rintro s c hc
      obtain rfl := Option.some.inj hc
      rfl
    simp only [transportValue, Bool.false_eq_true, if_false, List.append_assoc, List.cons_append]
    rw [fields_semicolon hudp.1 hudp.2 hunicast.1 hunicast.2 (respField_udp _),
      fields_semicolon hunicast.1 hunicast.2 hname.1 hname.2 (respField_unicast _)]
    have hnext := @fields_semicolon _ (dec h.resp.transport.rtpSrvPort ++ 45
        :: (dec h.resp.transport.rtcpSrvPort ++ (crlf ++ rest))) _ RtspResp.transportField
      { r with transport.intlvdMode := false } _ _
      (hname.1.append (isField_pair a b)) (List.append_ne_nil_of_left_ne_nil hname.2 _) hsrvName.1 hsrvName.2
      (by
        simp only [List.append_assoc, List.cons_append]
        exact respField_clientPort rfl hcli.1 hcli.2 (hsemi _))
    have hlast := @fields_last _ rest _ RtspResp.transportField { r with
        transport.intlvdMode := false
        transport.rtpCliPort := a
        transport.rtcpCliPort := b } _
      (hsrvName.1.append (isField_pair _ _)) (List.append_ne_nil_of_left_ne_nil hsrvName.2 _) (by
        simp only [List.append_assoc, List.cons_append]
        exact respField_serverPort rfl hsrv.1 hsrv.2 rest)
    simp only [List.append_assoc, List.cons_append] at hnext hlast
    exact hnext.trans hlast

lemma isLine_respValue (h : Handling) (a b : ℕ) : isLine (respValue h a b) := by
  have hsemi : (59 : UInt8) ≠ 13 ∧ (59 : UInt8) ≠ 10 := by decide
  have hdash : (45 : UInt8) ≠ 13 ∧ (45 : UInt8) ≠ 10 := by decide
  have hname : isLine (bytes "server_port=") := List.all_iff_forall_prop.mp (by decide +kernel)
  rw [respValue]
  split
  · exact isLine_transportValue true a b
  · exact (isLine_transportValue false a b).append (isLine_cons hsemi (hname.append
      ((isLine_dec _).append (isLine_cons hdash (isLine_dec _)))))

lemma transportRespLine_isLine (h : Handling) (a b : ℕ) : isLine (bytes "Transport: " ++ respValue h a b) :=
  isLine.append (respNames_isLine (bytes "Transport: ") (by simp)) (isLine_respValue h a b)

lemma transportRespLine_ne (h : Handling) (a b : ℕ) : bytes "Transport: " ++ respValue h a b ≠ [] :=
  append_ne (by decide)

lemma transportRespLine_content (h : Handling) (a b : ℕ) (rest : Bytes) :
    isContentType (bytes "Transport: " ++ respValue h a b ++ (crlf ++ rest)) = false :=
  hasPrefixCase_other (respNames_other (bytes "Content-Type", bytes "Transport: ") (by simp)) _ rest

lemma transportRespLine_respHdr {h : Handling} {a b : ℕ}
    (hpair : if h.intlvdMode then a < 2 ^ 7 ∧ b < 2 ^ 7
      else (a < 2 ^ 16 ∧ b < 2 ^ 16) ∧ h.resp.transport.rtpSrvPort < 2 ^ 16
        ∧ h.resp.transport.rtcpSrvPort < 2 ^ 16)
    (r : RtspResp) (rest : Bytes) :
    r.respHdr (bytes "Transport: " ++ respValue h a b ++ (crlf ++ rest)) = .ok (respTransport r h a b, true) := by
  have hne : ∀ tag ∈ [bytes "CSeq", bytes "Date", bytes "Session", bytes "Public"],
      hasPrefixCase tag (bytes "Transport: " ++ respValue h a b ++ (crlf ++ rest)) = false := by
    have hnames : ∀ tag ∈ [bytes "CSeq", bytes "Date", bytes "Session", bytes "Public"],
        ¬ tag.map toLower <+: (bytes "Transport: ").map toLower
          ∧ ¬ (bytes "Transport: ").map toLower <+: tag.map toLower := by decide +kernel
    exact fun tag htag => hasPrefixCase_other (hnames tag htag) _ rest
  rw [RtspResp.respHdr, hne _ (by simp), hne _ (by simp), hne _ (by simp), hne _ (by simp),
    hasPrefixCase_first (respNames_first (bytes "Transport", bytes "Transport: ") (by simp)),
    RtspResp.parseHdrTransport, List.append_assoc, hasPrefix_append, List.drop_left, respFields_value hpair]
  rfl

lemma transportRespLine_found (h : Handling) (a b : ℕ) (rest : Bytes) :
    hasPrefixCase (bytes "CSeq") (bytes "Transport: " ++ respValue h a b ++ (crlf ++ rest)) = false :=
  hasPrefixCase_other (respNames_other (bytes "CSeq", bytes "Transport: ") (by simp)) _ rest

def transportRespLine (h : Handling) (a b : ℕ)
    (hpair : if h.intlvdMode then a < 2 ^ 7 ∧ b < 2 ^ 7
      else (a < 2 ^ 16 ∧ b < 2 ^ 16) ∧ h.resp.transport.rtpSrvPort < 2 ^ 16
        ∧ h.resp.transport.rtcpSrvPort < 2 ^ 16) : RespLine where
  line := bytes "Transport: " ++ respValue h a b
  effect r := respTransport r h a b
  cseq := false
  isLine := transportRespLine_isLine h a b
  ne := transportRespLine_ne h a b
  content rest := transportRespLine_content h a b rest
  respHdr r rest := transportRespLine_respHdr hpair r rest
  found rest := transportRespLine_found h a b rest

lemma transportLine_eq {h : Handling} {a b : ℕ}
    (hpair : if h.intlvdMode then h.resp.transport.rtpChn = a ∧ h.resp.transport.rtcpChn = b
      else h.resp.transport.rtpCliPort = a ∧ h.resp.transport.rtcpCliPort = b) :
    LibRtspServer.transportLine h = bytes "Transport: " ++ respValue h a b := by
  have htcp : bytes "Transport: RTP/AVP/TCP;unicast;interleaved=" = bytes "Transport: "
      ++ (bytes "RTP/AVP/TCP" ++ 59 :: (bytes "unicast" ++ 59 :: bytes "interleaved=")) := by decide +kernel
  have hudp : bytes "Transport: RTP/AVP/UDP;unicast;client_port=" = bytes "Transport: "
      ++ (bytes "RTP/AVP/UDP" ++ 59 :: (bytes "unicast" ++ 59 :: bytes "client_port=")) := by decide +kernel
  have hsrv : bytes ";server_port=" = 59 :: bytes "server_port=" := by decide +kernel
  have hdash : bytes "-" = [45] := by decide
  have hdec : ∀ n : ℕ, decInt n = dec n := fun n => if_neg (by omega)
  rw [LibRtspServer.transportLine, respValue]
  split
  · next hmode =>
    rw [if_pos hmode] at hpair
    rw [hpair.1, hpair.2]
    simp only [transportValue, if_true, htcp, hdash, hdec, List.append_assoc, List.cons_append,
      List.nil_append]
  · next hmode =>
    rw [if_neg hmode] at hpair
    rw [hpair.1, hpair.2]
    simp only [transportValue, Bool.false_eq_true, if_false, hudp, hsrv, hdash, List.append_assoc,
      List.cons_append, List.nil_append]

end Transport

section Response

open LibRtspClient (RtspResp)

variable {s : LibRtspClient.RtspSess} {a : Asked} {h : Handling}

def statusLine : Bytes := rtspVersion ++ bytes " " ++ dec 200 ++ bytes " " ++ bytes "OK"

def okResp : RtspResp := { RtspResp.fresh with
  ver := rtspVersion
  code := 200
  reason := bytes "OK" }

lemma parseRespLine_ok (rest : Bytes) :
    RtspResp.fresh.parseRespLine (statusLine ++ (crlf ++ rest)) = .ok (okResp, true) := by
  have hspace : bytes " " = [32] := by decide
  have hver : ∀ c ∈ rtspVersion, isSpace c = false := by decide +kernel
  have hverne : rtspVersion ≠ [] := by decide +kernel
  have hreason : isLine (bytes "OK") ∧ bytes "OK" ≠ [] :=
      ⟨List.all_iff_forall_prop.mp (by decide +kernel), by decide +kernel⟩
  have hsep : ∀ c ∈ ([32] : Bytes), isSpace c = true := by decide +kernel
  have hblank : ∀ (s : Bytes), ∀ c ∈ (([32] : Bytes) ++ s).head?, isSpace c = true ∧ isDigit c = false := by
    rintro s c hc
    obtain rfl := Option.some.inj hc
    decide
  have hcode : ∀ s : Bytes, ∀ c ∈ (dec 200 ++ s).head?, isSpace c = false := by
    intro s c hc
    obtain ⟨d, ds, hdec, hd⟩ := exists_dec 200
    rw [hdec] at hc
    obtain rfl : d = c := Option.some.inj hc
    exact not_isSpace_of_isDigit hd
  have hok : ∀ s : Bytes, ∀ c ∈ (bytes "OK" ++ s).head?, isSpace c = false := by
    intro s c hc
    have hbytes : bytes "OK" = [79, 75] := by decide +kernel
    rw [hbytes] at hc
    obtain rfl : (79 : UInt8) = c := Option.some.inj hc
    decide
  have hscan : sscanf RtspResp.respLineFormat (statusLine ++ (crlf ++ rest))
      = [.text rtspVersion, .num (200 : ℕ), .text (bytes "OK")] := by
    rw [RtspResp.respLineFormat, statusLine, hspace]
    simp only [List.append_assoc]
    rw [sscanf_word _ hver hverne fun c hc => (hblank _ c hc).1, sscanf_space _ hsep (hcode _),
      sscanf_int _ 200 fun c hc => (hblank _ c hc).2, sscanf_space _ hsep (hok _),
      sscanf_line hreason.1 hreason.2]
  have hint : int ((200 : ℕ) : ℤ) = 200 := int_natCast (by decide)
  have hstore : LibRtspClient.store 16 rtspVersion = .ok rtspVersion
      ∧ LibRtspClient.store 64 (bytes "OK") = .ok (bytes "OK") := by
    exact ⟨if_pos (by decide +kernel), if_pos (by decide +kernel)⟩
  rw [RtspResp.parseRespLine, hscan]
  simp only [hstore.1, hstore.2, ok_bind, hint, and_self, decide_true]
  rfl

def methodRespLines (hh : Handled s a h) : List RespLine :=
  match a, hh with
  | .options, hh => [publicRespLine (LibRtspServer.str h.resp.publicHdr)
      (by
        rcases hh.publicHdr rfl with hp | hp <;> rw [hp] <;>
          exact List.all_iff_forall_prop.mp (by decide +kernel))
      (by rcases hh.publicHdr rfl with hp | hp <;> rw [hp] <;> decide +kernel)
      (by rcases hh.publicHdr rfl with hp | hp <;> rw [hp] <;> decide +kernel)]
  | .setup media, hh => [transportRespLine h (transportPair s media).1 (transportPair s media).2 (by
      obtain ⟨hmode, hpair⟩ := hh.transport media rfl
      obtain ⟨hfirst, hsecond, hchn⟩ := transportPair_lt s media
      rw [hmode]
      split
      · next hintlvd => exact hchn hintlvd
      · next hintlvd =>
        rw [if_neg hintlvd] at hpair
        exact ⟨⟨hfirst, hsecond⟩, hpair.2.2⟩)]
  | _, _ => []

def sessionRespLines (h : Handling) (hid : h.resp.sessId < 2 ^ 64) : List RespLine :=
  if h.resp.sessId ≠ 0 then [sessionRespLine h.resp.sessId hid] else []

def commonRespLines (tm : Tm) (cseq : UInt32) : List RespLine :=
  [cseqRespLine cseq.toNat (UInt32.toNat_lt cseq), dateRespLine tm, serverRespLine]

def respHdrLines (tm : Tm) (hh : Handled s a h) : List RespLine :=
  commonRespLines tm s.curCseq ++ sessionRespLines h hh.sessId

lemma respLines_eq (tm : Tm) (hh : Handled s a h) :
    respLines tm h = statusLine :: ((respHdrLines tm hh).map RespLine.line ++ LibRtspServer.methodLines h) := by
  have hsession : (if h.resp.sessId ≠ 0 then [bytes "Session: " ++ dec h.resp.sessId] else [])
      = (sessionRespLines h hh.sessId).map RespLine.line := by
    rw [sessionRespLines]
    split <;> rfl
  rw [respLines, hh.ver, hh.status, hh.server, hh.cseq, if_pos hh.state, hsession, respHdrLines,
    List.map_append]
  simp only [List.append_assoc]
  rfl

lemma methodLines_eq (hh : Handled s a h) (hne : a.method ≠ .describe) :
    LibRtspServer.methodLines h = (methodRespLines hh).map RespLine.line := by
  rw [LibRtspServer.methodLines, hh.method]
  cases a with
  | describe => exact absurd rfl hne
  | setup media =>
    obtain ⟨hmode, hpair⟩ := hh.transport media rfl
    refine congrArg (fun l => [l]) (transportLine_eq ?_)
    rw [hmode]
    split
    · next hintlvd => rwa [if_pos hintlvd] at hpair
    · next hintlvd =>
      rw [if_neg hintlvd] at hpair
      exact ⟨hpair.1, hpair.2.1⟩
  | _ => rfl

lemma respText_eq (tm : Tm) (hh : Handled s a h) :
    respText tm h = statusLine ++ (crlf ++ joined ((respHdrLines tm hh).map RespLine.line
      ++ LibRtspServer.methodLines h) (LibRtspServer.body h ++ crlf)) := by
  rw [respText, respLines_eq tm hh, joined_cons]

lemma parseRtspResp_respText (tm : Tm) (hh : Handled s a h) :
    LibRtspClient.parseRtspResp (respText tm h) = okResp.respHdrs false (joined
      ((respHdrLines tm hh).map RespLine.line ++ LibRtspServer.methodLines h) (LibRtspServer.body h ++ crlf)) := by
  have hline : isLine statusLine := by
    have hclosed : isLine rtspVersion ∧ isLine (bytes " ") ∧ isLine (bytes "OK") := by
      refine ⟨?_, ?_, ?_⟩ <;> exact List.all_iff_forall_prop.mp (by decide +kernel)
    exact (((hclosed.1.append hclosed.2.1).append (isLine_dec _)).append hclosed.2.1).append hclosed.2.2
  have hnext : getNextLine (respText tm h) = some (joined ((respHdrLines tm hh).map RespLine.line
      ++ LibRtspServer.methodLines h) (LibRtspServer.body h ++ crlf)) := by
    rw [respText, respLines_eq tm hh]
    exact getNextLine_joined hline (cseqRespLine _ (UInt32.toNat_lt s.curCseq)).isLine
      (cseqRespLine _ (UInt32.toNat_lt s.curCseq)).ne _ _
  rw [LibRtspClient.parseRtspResp, hnext, respText_eq tm hh, parseRespLine_ok, ok_bind]
  rfl

end Response

end SimpleCode.LibRtsp
