import SimpleCode.LibRtspServer.RtspMethod

set_option autoImplicit false

namespace SimpleCode.LibRtspServer

open Foundations Scan
open LibRtsp hiding Fault

def lines (line : Bytes) : List Bytes :=
  line :: match _h : getNextLine line with
    | none => []
    | some next => lines next
termination_by line.length
decreasing_by exact length_getNextLine ‹_›

def hdrLines (text : Bytes) : List Bytes :=
  match getNextLine text with
  | none => []
  | some line => lines line

def cseqOf (line : Bytes) : Option ℕ :=
  if hasPrefix (bytes "CSeq") line then
    match sscanf (lits (bytes "CSeq:") ++ [.space, .int]) line with
    | [.num v] => some (uint v)
    | _ => none
  else none

namespace Handling

def blank : Handling := ⟨.ready, false, ⟨0, .main, none⟩, .fresh, .fresh⟩

-- Whether the loop goes on after a header, if that can be read; it does not depend on the headers before.
def goesOn (env : ParseEnv) (line : Bytes) : Except LibRtsp.Fault Bool :=
  (blank.reqHdr env line).map Prod.snd

def reached (env : ParseEnv) : List Bytes → List Bytes
  | [] => []
  | line :: ls =>
    line :: match goesOn env line with
      | .ok true => reached env ls
      | _ => []

structure Keeps (h h' : Handling) : Prop where
  method : h'.req.method = h.req.method
  status : h'.resp.statusCode = .ok → h.resp.statusCode = .ok

lemma Keeps.refl (h : Handling) : Keeps h h := ⟨rfl, id⟩

lemma Keeps.trans {h h' h'' : Handling} (hk : Keeps h h') (hk' : Keeps h' h'') : Keeps h h'' :=
  ⟨hk'.method.trans hk.method, fun ok => hk.status (hk'.status ok)⟩

lemma keeps_status (h : Handling) {code : StatusCode} (hcode : code ≠ .ok) : Keeps h (h.status code) :=
  ⟨rfl, fun ok => absurd ok hcode⟩

variable {env : ParseEnv} {h : Handling} {line : Bytes}

section Transport

lemma transportField_resp (h : Handling) (ptr : Bytes) : (h.transportField ptr).1.resp = h.resp
    ∧ (h.transportField ptr).1.req.method = h.req.method := by
  rw [transportField]
  split_ifs
  · exact ⟨rfl, rfl⟩
  · exact ⟨rfl, rfl⟩
  · exact ⟨rfl, rfl⟩
  · exact ⟨rfl, rfl⟩
  · rw [clientPort]
    split <;> exact ⟨rfl, rfl⟩
  · rw [interleaved]
    split <;> exact ⟨rfl, rfl⟩
  · exact ⟨rfl, rfl⟩

lemma transportField_snd (h h' : Handling) (ptr : Bytes) :
    (h.transportField ptr).2 = (h'.transportField ptr).2 := by
  rw [transportField, transportField]
  split_ifs
  · rfl
  · rfl
  · rfl
  · rfl
  · rw [clientPort, clientPort]
    split <;> rfl
  · rw [interleaved, interleaved]
    split <;> rfl
  · rfl

lemma parseHdrTransport_snd (h h' : Handling) (line : Bytes) :
    (h.parseHdrTransport line).map Prod.snd = (h'.parseHdrTransport line).map Prod.snd := by
  rw [parseHdrTransport, parseHdrTransport]
  split_ifs
  · exact fields_snd transportField_snd h h' _
  · rfl

lemma parseHdrTransport_resp {r : Handling × Bool} (hr : h.parseHdrTransport line = .ok r) :
    r.1.resp = h.resp ∧ r.1.req.method = h.req.method := by
  rw [parseHdrTransport] at hr
  split_ifs at hr
  · refine @fields_rel _ _ (fun h h' => h'.resp = h.resp ∧ h'.req.method = h.req.method)
      (fun _ => ⟨rfl, rfl⟩) ?_ transportField_resp _ _ _ hr
    exact fun hst htu => ⟨htu.1.trans hst.1, htu.2.trans hst.2⟩
  · cases hr
    exact ⟨rfl, rfl⟩

end Transport

lemma reqHdr_snd (h h' : Handling) (line : Bytes) :
    (h.reqHdr env line).map Prod.snd = (h'.reqHdr env line).map Prod.snd := by
  rw [reqHdr, reqHdr]
  split_ifs
  · rw [cseqHdr, cseqHdr]
    split <;> rfl
  · rw [sessionHdr, sessionHdr]
    split
    · dsimp only
      split_ifs <;> rfl
    · rfl
  · rfl
  · have hsnd := parseHdrTransport_snd h h' line
    rw [transportHdr, transportHdr]
    cases hp : h.parseHdrTransport line <;> cases hp' : h'.parseHdrTransport line <;> rw [hp, hp'] at hsnd
    · cases hsnd
      rfl
    · cases hsnd
    · cases hsnd
    · next r r' =>
      obtain ⟨h₁, parsed⟩ := r
      obtain ⟨h₂, parsed'⟩ := r'
      obtain rfl : parsed = parsed' := Except.ok.inj hsnd
      cases parsed <;> rfl
  · rfl

lemma reqHdr_spec {r : Handling × Bool} (hr : h.reqHdr env line = .ok r) :
    Keeps h r.1 ∧ r.1.resp.cseq = (cseqOf line).getD h.resp.cseq := by
  rw [reqHdr] at hr
  split_ifs at hr with hcseq hsess huser htransport
  · cases hr
    rw [cseqHdr, cseqOf, if_pos hcseq]
    generalize sscanf (lits (bytes "CSeq:") ++ [.space, .int]) line = vals
    rcases vals with _ | ⟨val, _ | ⟨next, vals⟩⟩
    · exact ⟨keeps_status h (by rintro ⟨⟩), rfl⟩
    · cases val with
      | num v => exact ⟨⟨rfl, id⟩, rfl⟩
      | text s => exact ⟨keeps_status h (by rintro ⟨⟩), rfl⟩
    · cases val <;> exact ⟨keeps_status h (by rintro ⟨⟩), rfl⟩
  · cases hr
    rw [sessionHdr, cseqOf, if_neg hcseq]
    split
    · dsimp only
      split_ifs
      · exact ⟨⟨rfl, id⟩, rfl⟩
      · exact ⟨⟨rfl, by rintro ⟨⟩⟩, rfl⟩
    · exact ⟨keeps_status h (by rintro ⟨⟩), rfl⟩
  · cases hr
    rw [cseqOf, if_neg hcseq]
    exact ⟨.refl h, rfl⟩
  · rw [cseqOf, if_neg hcseq]
    rw [transportHdr] at hr
    cases hp : h.parseHdrTransport line with
    | error f =>
      rw [hp] at hr
      cases hr
    | ok p =>
      obtain ⟨hresp, hmethod⟩ := parseHdrTransport_resp hp
      have hcseq' : p.1.resp.cseq = h.resp.cseq := congrArg RtspResp.cseq hresp
      rw [hp] at hr
      obtain ⟨h', parsed⟩ := p
      cases parsed <;> cases hr
      · exact ⟨⟨hmethod, by rintro ⟨⟩⟩, hcseq'⟩
      · exact ⟨⟨hmethod, fun ok => hresp ▸ ok⟩, hcseq'⟩
  · cases hr
    rw [cseqOf, if_neg hcseq]
    exact ⟨.refl h, rfl⟩

section Headers

lemma reqHdr_goesOn {b : Bool} (hb : goesOn env line = .ok b) (h : Handling) :
    ∃ h', h.reqHdr env line = .ok (h', b) := by
  have hsnd := (reqHdr_snd h blank line).trans hb
  cases hr : h.reqHdr env line with
  | error f => cases hr ▸ hsnd
  | ok r =>
    rw [hr] at hsnd
    exact ⟨r.1, congrArg Except.ok (Prod.ext rfl (Except.ok.inj hsnd))⟩

lemma goesOn_reqHdr {r : Handling × Bool} (hr : h.reqHdr env line = .ok r) : goesOn env line = .ok r.2 := by
  rw [goesOn, reqHdr_snd blank h line, hr]
  rfl

lemma lines_eq (line : Bytes) : lines line = line :: hdrLines line := by
  rw [lines, hdrLines]
  split <;> next hnext => rw [hnext]

lemma reqHdrs_step (found : Bool) {r : Handling × Bool} (hr : h.reqHdr env line = .ok r) :
    h.reqHdrs env found line = if r.2 then
        match getNextLine line with
        | none => .ok (r.1, found || cseqFound line)
        | some next => r.1.reqHdrs env (found || cseqFound line) next
      else .ok (r.1, found || cseqFound line) := by
  rw [reqHdrs, hr]
  change (if r.2 then _ else _) = _
  split_ifs
  · split <;> next hnext => rw [hnext]
  · rfl

lemma reqHdrs_ok (hok : ∀ l ∈ reached env (lines line), ∃ b, goesOn env l = .ok b) (h : Handling) (found : Bool) :
    ∃ r, h.reqHdrs env found line = .ok r := by
  induction hn : line.length using Nat.strong_induction_on generalizing line h found with
  | _ n ih =>
    rw [lines_eq, reached] at hok
    obtain ⟨⟨b, hb⟩, hrest⟩ := List.forall_mem_cons.mp hok
    obtain ⟨h', hr⟩ := reqHdr_goesOn hb h
    rw [reqHdrs_step found hr]
    cases b with
    | false => exact ⟨_, rfl⟩
    | true =>
      rw [if_pos rfl]
      cases hnext : getNextLine line with
      | none => exact ⟨_, rfl⟩
      | some next =>
        rw [hb, hdrLines, hnext] at hrest
        exact ih _ (hn ▸ length_getNextLine hnext) hrest h' _ rfl

lemma reqHdrs_spec {found : Bool} {r : Handling × Bool} (hr : h.reqHdrs env found line = .ok r) :
    Keeps h r.1 ∧ r.1.resp.cseq = ((reached env (lines line)).filterMap cseqOf).getLastD h.resp.cseq := by
  induction hn : line.length using Nat.strong_induction_on generalizing line h found with
  | _ n ih =>
    cases hhdr : h.reqHdr env line with
    | error f =>
      rw [reqHdrs, hhdr] at hr
      cases hr
    | ok p =>
      obtain ⟨hkeeps, hcseq⟩ := reqHdr_spec hhdr
      have hlast (ls : List Bytes) : ((line :: ls).filterMap cseqOf).getLastD h.resp.cseq
          = (ls.filterMap cseqOf).getLastD p.1.resp.cseq := by
        rw [hcseq]
        cases hc : cseqOf line with
        | none => rw [List.filterMap_cons_none hc, Option.getD_none]
        | some v => rw [List.filterMap_cons_some hc, List.getLastD_cons, Option.getD_some]
      rw [reqHdrs_step found hhdr] at hr
      rw [lines_eq, reached, goesOn_reqHdr hhdr, hlast]
      obtain ⟨h', go⟩ := p
      cases go with
      | false =>
        cases hr
        exact ⟨hkeeps, rfl⟩
      | true =>
        rw [if_pos rfl] at hr
        cases hnext : getNextLine line with
        | none =>
          rw [hnext] at hr
          cases hr
          rw [hdrLines, hnext]
          exact ⟨hkeeps, rfl⟩
        | some next =>
          rw [hnext] at hr
          rw [hdrLines, hnext]
          obtain ⟨hkeeps', hcseq'⟩ := ih _ (hn ▸ length_getNextLine hnext) hr rfl
          exact ⟨hkeeps.trans hkeeps', hcseq'⟩

end Headers

section RequestLine

def NamesRead (env : ParseEnv) (text : Bytes) : Prop :=
  getRtspMethod text ≠ none → ∀ ptr ∈ getNextWord text, env.dupUri ∧ ∀ _ptr ∈ getNextWord ptr, env.dupReqVer

/-- The parser has what it reads: the words of the request line and the ends of the headers. -/
def Readable (env : ParseEnv) (text : Bytes) : Prop :=
  NamesRead env text ∧ ∀ line ∈ reached env (hdrLines text), ∃ b, goesOn env line = .ok b

structure Same (h h' : Handling) : Prop where
  method : h'.req.method = h.req.method
  cseq : h'.resp.cseq = h.resp.cseq

lemma same_parseRtspUri (h : Handling) (uri : Bytes) : Same h (parseRtspUri env h uri) := by
  rw [parseRtspUri]
  split_ifs
  · exact ⟨rfl, rfl⟩
  · split
    · rw [setChn]
      split_ifs <;> exact ⟨rfl, rfl⟩
    · split
      · rw [setMedia]
        split_ifs <;> exact ⟨rfl, rfl⟩
      · split
        · rw [setFile]
          split_ifs <;> exact ⟨rfl, rfl⟩
        · rw [setDefault]
          split_ifs <;> exact ⟨rfl, rfl⟩
  · exact ⟨rfl, rfl⟩

lemma same_checkVersion (h : Handling) (ver : Bytes) : Same h (h.checkVersion ver) := by
  rw [checkVersion]
  split_ifs <;> exact ⟨rfl, rfl⟩

lemma parseReqLine_spec {text : Bytes} (hread : NamesRead env text) (h : Handling) :
    ∃ h', parseReqLine env h text = .ok h' ∧ h'.resp.cseq = h.resp.cseq
      ∧ (h'.req.method = none → h'.resp.statusCode ≠ .ok) := by
  rw [parseReqLine]
  dsimp only
  by_cases hmethod : getRtspMethod text = none
  · rw [if_pos hmethod]
    exact ⟨_, rfl, rfl, fun _ => nofun⟩
  rw [if_neg hmethod]
  cases hptr : getNextWord text with
  | none => exact ⟨_, rfl, rfl, fun hnone => absurd hnone hmethod⟩
  | some ptr =>
    obtain ⟨huri, hver⟩ := hread hmethod ptr hptr
    simp only [strndup, huri, if_true]
    have huri' := @same_parseRtspUri env { h with
      req.method := getRtspMethod text
      req.uri := some (wordOf ptr) } (wordOf ptr)
    generalize parseRtspUri env _ (wordOf ptr) = h₁ at huri'
    cases hptr' : getNextWord ptr with
    | none =>
      refine ⟨_, rfl, huri'.cseq, fun hnone => absurd ?_ hmethod⟩
      exact huri'.method.symm.trans hnone
    | some ptr' =>
      simp only [hver ptr' hptr', if_true]
      have hsame := same_checkVersion { h₁ with req.ver := some (wordOf ptr') } (wordOf ptr')
      refine ⟨_, rfl, hsame.cseq.trans huri'.cseq, fun hnone => absurd ?_ hmethod⟩
      exact (hsame.method.trans huri'.method).symm.trans hnone

end RequestLine

lemma parsed_spec (h : Handling) (hmethod : h.req.method = none → h.resp.statusCode ≠ .ok) :
    (h.parsed.state = .parsed ∧ h.parsed.req.method ≠ none ∨ h.parsed.state = .error ∨ h.parsed.state = .failed)
      ∧ h.parsed.resp.cseq = h.resp.cseq := by
  rw [parsed]
  split_ifs with hfailed hok
  · exact ⟨.inr (.inr hfailed), rfl⟩
  · exact ⟨.inl ⟨rfl, fun hnone => hmethod hnone hok⟩, rfl⟩
  · exact ⟨.inr (.inl rfl), rfl⟩

lemma parseRtspReq_spec {text : Bytes} (hread : Readable env text) (hstate : h.state = .ready)
    (hcseq : h.req.cseq = 0) : ∃ p, h.parseRtspReq env text = .ok p
      ∧ (p.state = .parsed ∧ p.req.method ≠ none ∨ p.state = .error ∨ p.state = .failed)
      ∧ p.resp.cseq = ((reached env (hdrLines text)).filterMap cseqOf).getLastD 0 := by
  rw [parseRtspReq, if_neg (not_not_intro hstate)]
  dsimp only
  obtain ⟨h₁, hline, hcseq₁, hmethod₁⟩ := parseReqLine_spec hread.1 { h with
    resp.ver := strndup env.dupVer rtspVersion
    resp.server := strndup env.dupServer (bytes "Zmodo-RTSP-Server")
    resp.cseq := h.req.cseq
    resp.sessId := h.req.sessId }
  replace hcseq₁ : h₁.resp.cseq = 0 := hcseq₁.trans hcseq
  rw [hline]
  change ∃ p, (match getNextLine text with
    | none => Except.ok h₁.parsed
    | some line => h₁.parseReqHdrs env line >>= fun h => .ok h.parsed) = .ok p ∧ _
  cases hnext : getNextLine text with
  | none =>
    obtain ⟨hparsed, hcseq'⟩ := parsed_spec h₁ hmethod₁
    refine ⟨_, rfl, hparsed, ?_⟩
    rw [hcseq', hcseq₁, hdrLines, hnext]
    rfl
  | some line =>
    have hhdrs := hread.2
    rw [hdrLines, hnext] at hhdrs ⊢
    obtain ⟨⟨h₂, found⟩, hrun⟩ := reqHdrs_ok hhdrs h₁ false
    obtain ⟨hkeeps, hcseq₂⟩ := reqHdrs_spec hrun
    rw [hcseq₁] at hcseq₂
    have hfound : ∃ h₃, h₁.parseReqHdrs env line = .ok h₃ ∧ Keeps h₂ h₃ ∧ h₃.resp.cseq = h₂.resp.cseq := by
      rw [parseReqHdrs, hrun]
      refine ⟨_, rfl, ?_⟩
      split_ifs
      · exact ⟨.refl _, rfl⟩
      · exact ⟨keeps_status _ nofun, rfl⟩
    obtain ⟨h₃, hhdrs₃, hkeeps₃, hcseq₃⟩ := hfound
    have hall := hkeeps.trans hkeeps₃
    obtain ⟨hparsed, hcseq'⟩ := parsed_spec h₃ fun hnone hok =>
      hmethod₁ (hall.method ▸ hnone) (hall.status hok)
    simp only [hhdrs₃]
    exact ⟨_, rfl, hparsed, hcseq'.trans (hcseq₃.trans hcseq₂)⟩

end Handling

end SimpleCode.LibRtspServer
