import SimpleCode.LibRtspClient.RtspMethod
import SimpleCode.LibRtspServer.RtspMethod

set_option autoImplicit false

namespace SimpleCode.LibRtsp

open Foundations Scan
open LibRtspServer (Handling ParseEnv getRtspMethod getNextWord wordOf)

section RequestLine

variable {w rest : Bytes}

def isWord (w : Bytes) : Prop := ∀ c ∈ w, c ≠ 32 ∧ c ≠ 13 ∧ c ≠ 10

instance (w : Bytes) : Decidable (isWord w) :=
  inferInstanceAs (Decidable (∀ c ∈ w, c ≠ 32 ∧ c ≠ 13 ∧ c ≠ 10))

lemma isWord.append {w' : Bytes} (h : isWord w) (h' : isWord w') : isWord (w ++ w') :=
  fun c hc => (List.mem_append.mp hc).elim (h c) (h' c)

lemma getNextWord_append (hw : isWord w) (hrest : rest.head? ≠ some 32) :
    getNextWord (w ++ 32 :: rest) = some rest := by
  induction w with
  | nil => exact if_pos ⟨rfl, hrest⟩
  | cons c w ih =>
    obtain ⟨hspace, hcr, hlf⟩ := hw c List.mem_cons_self
    rw [List.cons_append, getNextWord, if_neg fun h => hspace h.1, if_neg fun h => h.elim hcr hlf]
    exact ih fun d hd => hw d (List.mem_cons_of_mem c hd)

lemma wordOf_append (hw : isWord w) {c : UInt8} (hc : c = 32 ∨ c = 13 ∨ c = 10) (rest : Bytes) :
    wordOf (w ++ c :: rest) = w := by
  refine (dropWhile_append_of_head ?_ ?_).2
  · rintro d hd
    obtain rfl := Option.some.inj hd
    rcases hc with rfl | rfl | rfl <;> rfl
  · intro d hd
    simpa using hw d hd

lemma token_inj {m m' : Method} (h : m.token <+: m'.token) : m = m' := by
  have hall : ∀ m ∈ Method.all, ∀ m' ∈ Method.all, m.token <+: m'.token → m = m' := by decide
  exact hall m (Method.mem_all m) m' (Method.mem_all m') h

lemma getRtspMethod_token (m : Method) (rest : Bytes) :
    getRtspMethod (m.token ++ rest) = some m := by
  rw [getRtspMethod]
  cases hfind : Method.all.find? fun m' => hasPrefix m'.token (m.token ++ rest) with
  | none => exact absurd (hasPrefix_append m.token rest) (List.find?_eq_none.mp hfind m (Method.mem_all m))
  | some m' =>
    have hprefix := List.find?_some hfind
    rw [hasPrefix_iff] at hprefix
    rcases List.prefix_or_prefix_of_prefix hprefix (List.prefix_append m.token rest) with h | h
    · rw [token_inj h]
    · rw [token_inj h]

lemma isWord_token (m : Method) : isWord m.token := by
  cases m <;> exact List.all_iff_forall_prop.mp (by decide +kernel)

end RequestLine

section Uri

variable {h : Handling} {env : ParseEnv} {host suffix : Bytes} {chnNo chnType : ℕ}

def chnUri (host : Bytes) (chnNo chnType : ℕ) : Bytes :=
  bytes "rtsp://" ++ (host ++ (bytes "/av" ++ (dec chnNo ++ 95 :: dec chnType)))

lemma sscanf_chn (hhost : (47 : UInt8) ∉ host) (hne : host ≠ []) (hsuffix : ∀ c ∈ suffix.head?, c = 47) :
    sscanf Handling.chnFormat (chnUri host chnNo chnType ++ suffix) = [.num chnNo, .num chnType] := by
  have hdash : ∀ c ∈ ((95 : UInt8) :: (dec chnType ++ suffix)).head?, isDigit c = false := by
    rintro c hc
    obtain rfl := Option.some.inj hc
    rfl
  have hslash : ∀ c ∈ suffix.head?, isDigit c = false := by
    intro c hc
    rw [hsuffix c hc]
    rfl
  rw [Handling.chnFormat, Handling.hostFormat, chnUri]
  simp only [List.append_assoc, List.cons_append, List.nil_append]
  rw [sscanf_lits, sscanf_skipNoneOf, sscanf_lits, sscanf_int _ _ hdash]
  · change .num chnNo :: (scan (.lit 95 :: [.int]) (95 :: (dec chnType ++ suffix))).1 = _
    rw [scan, if_pos rfl]
    exact congrArg _ (sscanf_int [] chnType hslash)
  · intro c hc
    rw [List.mem_singleton]
    rintro rfl
    exact hhost hc
  · exact hne
  · rintro c hc
    obtain rfl : (47 : UInt8) = c := Option.some.inj hc
    exact List.mem_singleton_self 47

def serverMedia : LibRtspClient.MediaType → LibRtspServer.MediaType
  | .video => .video
  | .audio => .audio

inductive Locates (env : ParseEnv) (uri : Bytes) : LibRtspServer.MediaType → Prop
  -- `rtsp://host/avC_T`
  | chn {chnNo chnType : ℤ} (hchn : sscanf Handling.chnFormat uri = [.num chnNo, .num chnType])
      (hno : 0 ≤ int chnNo ∧ int chnNo < LibRtspServer.maxChnNum)
      (htype : 0 ≤ int chnType ∧ int chnType ≤ 1) : Locates env uri .video
  -- `rtsp://host/name/trackN`
  | track {n : ℤ} (hchn : ∀ chnNo chnType, sscanf Handling.chnFormat uri ≠ [.num chnNo, .num chnType])
      (htrack : sscanf Handling.trackFormat uri = [.num n]) {media : LibRtspClient.MediaType}
      (hn : int n = media.toNat) : Locates env uri (serverMedia media)
  -- `rtsp://host/file`
  | file {fileName : Bytes} (hchn : ∀ chnNo chnType, sscanf Handling.chnFormat uri ≠ [.num chnNo, .num chnType])
      (htrack : ∀ n, sscanf Handling.trackFormat uri ≠ [.num n])
      (hfile : sscanf Handling.fileFormat uri = [.text fileName]) (haccess : env.access fileName) :
      Locates env uri .video
  -- `rtsp://host`, where the case of the letters in front of the host is not looked at
  | default (hrtsp : hasPrefixCase (bytes "rtsp://") uri)
      (hchn : ∀ chnNo chnType, sscanf Handling.chnFormat uri ≠ [.num chnNo, .num chnType])
      (htrack : ∀ n, sscanf Handling.trackFormat uri ≠ [.num n])
      (hfile : ∀ fileName, sscanf Handling.fileFormat uri ≠ [.text fileName])
      (hhost : assigned Handling.hostFormat uri = 0) : Locates env uri .video

lemma hasPrefixCase_of_sscanf {f : List Dir} {uri : Bytes} (h : sscanf (Handling.hostFormat ++ f) uri ≠ []) :
    hasPrefixCase (bytes "rtsp://") uri := by
  by_contra hno
  refine h ?_
  rw [Handling.hostFormat, List.append_assoc]
  refine sscanf_lits_ne _ fun hp => hno ?_
  obtain ⟨rest, rfl⟩ := hp
  exact hasPrefixCase_append List.prefix_rfl rest

lemma Locates.hasPrefixCase {uri : Bytes} {media : LibRtspServer.MediaType} (h : Locates env uri media) :
    hasPrefixCase (bytes "rtsp://") uri := by
  cases h with
  | chn hchn => exact hasPrefixCase_of_sscanf (by rw [← Handling.chnFormat, hchn]; exact List.cons_ne_nil _ _)
  | track _ htrack =>
    exact hasPrefixCase_of_sscanf (by rw [← Handling.trackFormat, htrack]; exact List.cons_ne_nil _ _)
  | file _ _ hfile =>
    exact hasPrefixCase_of_sscanf (by rw [← Handling.fileFormat, hfile]; exact List.cons_ne_nil _ _)
  | default hprefix => exact hprefix

-- What the URI gives: a medium and a status, which is OK for the medium that it locates.
def Locating (env : ParseEnv) (uri : Bytes) (h h' : Handling) : Prop :=
  ∃ strm media code, h' = { h with
      strmInfo := strm
      req.media := media
      resp.statusCode := code }
    ∧ ∀ m, code = .ok ∧ media = m ↔ Locates env uri m

section Locating

variable {uri : Bytes}

lemma locating_keep (hok : h.resp.statusCode = .ok) (hmedia : h.req.media = .video)
    {strm : LibRtspServer.StrmInfo} (hl : ∀ m, Locates env uri m ↔ .video = m) :
    Locating env uri h { h with strmInfo := strm } :=
  ⟨strm, .video, .ok, by rw [← hok, ← hmedia], fun m => by rw [hl m, and_iff_right rfl]⟩

lemma locating_reject {code : LibRtspServer.StatusCode} (hcode : code ≠ .ok) (hl : ∀ m, ¬ Locates env uri m) :
    Locating env uri h (h.status code) :=
  ⟨h.strmInfo, h.req.media, code, rfl, fun m => iff_of_false (fun h => hcode h.1) (hl m)⟩

lemma locating_setChn (hok : h.resp.statusCode = .ok) (hmedia : h.req.media = .video) {chnNo chnType : ℤ}
    (hchn : sscanf Handling.chnFormat uri = [.num chnNo, .num chnType]) :
    Locating env uri h (h.setChn (int chnNo) (int chnType)) := by
  rw [Handling.setChn]
  by_cases hrange : int chnNo < 0 ∨ LibRtspServer.maxChnNum ≤ int chnNo ∨ int chnType < 0 ∨ 1 < int chnType
  · rw [if_pos hrange]
    refine locating_reject nofun fun m hl => ?_
    cases hl with
    | chn hchn' hno htype =>
      obtain ⟨rfl, rfl⟩ : chnNo = _ ∧ chnType = _ := by simpa using hchn.symm.trans hchn'
      omega
    | track hno | file hno | default _ hno => exact hno _ _ hchn
  · rw [if_neg hrange]
    refine locating_keep hok hmedia fun m => ⟨fun hl => ?_, ?_⟩
    · cases hl with
      | chn => rfl
      | track hno | file hno | default _ hno => exact absurd hchn (hno _ _)
    · rintro rfl
      exact .chn hchn (by omega) (by omega)

section NoChn

variable (hchn : ∀ chnNo chnType, sscanf Handling.chnFormat uri ≠ [.num chnNo, .num chnType])

include hchn

lemma locates_track {n : ℤ} (htrack : sscanf Handling.trackFormat uri = [.num n]) {m : LibRtspServer.MediaType} :
    Locates env uri m ↔ ∃ media : LibRtspClient.MediaType, int n = media.toNat ∧ serverMedia media = m := by
  constructor
  · intro hl
    cases hl with
    | chn hchn' => exact absurd hchn' (hchn _ _)
    | track _ htrack' hn =>
      obtain rfl : n = _ := by simpa using htrack.symm.trans htrack'
      exact ⟨_, hn, rfl⟩
    | file _ hno | default _ _ hno => exact absurd htrack (hno _)
  · rintro ⟨media, hn, rfl⟩
    exact .track hchn htrack hn

lemma locating_setMedia (hok : h.resp.statusCode = .ok) {n : ℤ} (htrack : sscanf Handling.trackFormat uri = [.num n]) :
    Locating env uri h (h.setMedia (int n)) := by
  rw [Handling.setMedia]
  by_cases hrange : int n < 0 ∨ 1 < int n
  · rw [if_pos hrange]
    refine locating_reject nofun fun m hl => ?_
    obtain ⟨media, hn, -⟩ := (locates_track hchn htrack).mp hl
    cases media <;> simp only [LibRtspClient.MediaType.toNat] at hn <;> omega
  · rw [if_neg hrange]
    obtain ⟨media, hn⟩ : ∃ media : LibRtspClient.MediaType, int n = media.toNat := by
      rcases (by omega : int n = 0 ∨ int n = 1) with hn | hn
      · exact ⟨.video, hn⟩
      · exact ⟨.audio, hn⟩
    refine ⟨h.strmInfo, serverMedia media, .ok, ?_, fun m => ?_⟩
    · rw [← hok, hn]
      cases media <;> rfl
    · rw [locates_track hchn htrack, and_iff_right rfl]
      refine ⟨fun hm => ⟨media, hn, hm⟩, ?_⟩
      rintro ⟨media', hn', rfl⟩
      have hsame : media.toNat = media'.toNat := by exact_mod_cast hn.symm.trans hn'
      cases media <;> cases media' <;> first | rfl | exact absurd hsame (by decide)

variable (htrack : ∀ n, sscanf Handling.trackFormat uri ≠ [.num n])

include htrack

omit hchn in
lemma locates_eq_video {m : LibRtspServer.MediaType} (hl : Locates env uri m) : .video = m := by
  cases hl with
  | track _ htrack' => exact absurd htrack' (htrack _)
  | chn | file | default => rfl

lemma locating_setFile (hok : h.resp.statusCode = .ok) (hmedia : h.req.media = .video) {fileName : Bytes}
    (hfile : sscanf Handling.fileFormat uri = [.text fileName]) : Locating env uri h (h.setFile env fileName) := by
  rw [Handling.setFile]
  split_ifs with haccess
  · refine locating_keep hok hmedia fun m => ⟨locates_eq_video htrack, ?_⟩
    rintro rfl
    exact .file hchn htrack hfile haccess
  · refine locating_reject nofun fun m hl => ?_
    cases hl with
    | chn hchn' => exact hchn _ _ hchn'
    | track _ htrack' => exact htrack _ htrack'
    | file _ _ hfile' haccess' =>
      obtain rfl : fileName = _ := by simpa using hfile.symm.trans hfile'
      exact haccess haccess'
    | default _ _ _ hno => exact hno _ hfile

lemma locating_setDefault (hok : h.resp.statusCode = .ok) (hmedia : h.req.media = .video)
    (hrtsp : hasPrefixCase (bytes "rtsp://") uri)
    (hfile : ∀ fileName, sscanf Handling.fileFormat uri ≠ [.text fileName]) :
    Locating env uri h (h.setDefault uri) := by
  rw [Handling.setDefault]
  split_ifs with hhost
  · refine locating_keep hok hmedia fun m => ⟨locates_eq_video htrack, ?_⟩
    rintro rfl
    exact .default hrtsp hchn htrack hfile hhost
  · refine locating_reject nofun fun m hl => ?_
    cases hl with
    | chn hchn' => exact hchn _ _ hchn'
    | track _ htrack' => exact htrack _ htrack'
    | file _ _ hfile' => exact hfile _ hfile'
    | default _ _ _ _ hhost' => exact hhost hhost'

end NoChn

lemma parseRtspUri_spec (env : ParseEnv) (hlen : uri.length < 256) (h : Handling)
    (hok : h.resp.statusCode = .ok) (hmedia : h.req.media = .video) :
    Locating env uri h (h.parseRtspUri env uri) := by
  by_cases hrtsp : hasPrefixCase (bytes "rtsp://") uri
  swap
  · rw [Handling.parseRtspUri, if_pos hrtsp]
    exact locating_reject nofun fun m hl => hrtsp hl.hasPrefixCase
  rw [Handling.parseRtspUri, if_neg (not_not.mpr hrtsp),
    if_neg (Nat.not_le_of_lt hlen : ¬ LibRtspServer.maxUriSz ≤ uri.length)]
  split
  · next hchn => exact locating_setChn hok hmedia hchn
  · next hchn =>
    split
    · next htrack => exact locating_setMedia hchn hok htrack
    · next htrack =>
      split
      · next hfile => exact locating_setFile hchn htrack hok hmedia hfile
      · next hfile => exact locating_setDefault hchn htrack hok hmedia hrtsp hfile

end Locating

lemma locates_chn (hhost : (47 : UInt8) ∉ host) (hne : host ≠ []) (hsuffix : ∀ c ∈ suffix.head?, c = 47)
    (hno : chnNo < 8) (htype : chnType ≤ 1) : Locates env (chnUri host chnNo chnType ++ suffix) .video := by
  refine .chn (sscanf_chn hhost hne hsuffix) ?_ ?_
  · rw [int_natCast (show chnNo < 2 ^ 31 by omega), LibRtspServer.maxChnNum]
    omega
  · rw [int_natCast (show chnType < 2 ^ 31 by omega)]
    omega

lemma parseReqLine_word {m : Method} {uri : Bytes} (hdup : env.dupUri ∧ env.dupReqVer) (huri : isWord uri)
    (hne : uri ≠ []) (rest : Bytes) :
    h.parseReqLine env (m.token ++ bytes " " ++ uri ++ bytes " " ++ rtspVersion ++ (crlf ++ rest)) = .ok
      { Handling.parseRtspUri env { h with
          req.method := some m
          req.uri := some uri } uri with req.ver := some rtspVersion } := by
  have hspace : bytes " " = [32] := by decide
  have hver : isWord rtspVersion := List.all_iff_forall_prop.mp (by decide +kernel)
  have hhead : (uri ++ 32 :: (rtspVersion ++ (crlf ++ rest))).head? ≠ some 32 := by
    obtain ⟨c, tail, rfl⟩ := List.exists_cons_of_ne_nil hne
    exact fun h => (huri c List.mem_cons_self).1 (Option.some.inj h)
  have hhead' : (rtspVersion ++ (crlf ++ rest)).head? ≠ some 32 :=
    fun h => absurd (Option.some.inj h) (by decide)
  simp only [hspace, List.append_assoc, List.cons_append, List.nil_append]
  rw [Handling.parseReqLine]
  simp only [getRtspMethod_token, reduceCtorEq, if_false, getNextWord_append (isWord_token m) hhead,
    wordOf_append huri (.inl rfl), LibRtspServer.strndup, if_pos hdup.1,
    getNextWord_append huri hhead', if_pos hdup.2]
  rw [crlf, List.cons_append, wordOf_append hver (.inr (.inl rfl)), Handling.checkVersion, if_pos rfl]

end Uri

section Headers

variable {h h' : Handling} {env : ParseEnv} {l rest : Bytes}

lemma not_isDigit_crlf (rest : Bytes) : ∀ c ∈ (crlf ++ rest).head?, isDigit c = false := by
  intro c hc
  obtain rfl : (13 : UInt8) = c := Option.some.inj hc
  rfl

lemma sscanf_hdr (name : Bytes) (n : ℕ) (rest : Bytes) :
    sscanf (lits name ++ [.space, .int]) (name ++ [32] ++ dec n ++ (crlf ++ rest)) = [.num n] := by
  obtain ⟨c, ds, hdec, hc⟩ := exists_dec n
  have hhead : ∀ d ∈ (dec n ++ (crlf ++ rest)).head?, isSpace d = false := by
    rw [hdec]
    rintro d hd
    obtain rfl : c = d := Option.some.inj hd
    exact not_isSpace_of_isDigit hc
  rw [List.append_assoc, List.append_assoc, sscanf_lits,
    sscanf_space _ (fun c hc => by rw [List.mem_singleton.mp hc]; rfl) hhead,
    sscanf_int _ n (not_isDigit_crlf rest)]
  rfl

lemma reqHdr_cseq {n : ℕ} (hn : n < 2 ^ 32) (rest : Bytes) :
    h.reqHdr env (bytes "CSeq: " ++ dec n ++ (crlf ++ rest)) = .ok ({ h with
      req.cseq := n
      resp.cseq := n }, true)
    ∧ Handling.cseqFound (bytes "CSeq: " ++ dec n ++ (crlf ++ rest)) = true := by
  have hname : bytes "CSeq: " = bytes "CSeq:" ++ [32] := by decide
  have hprefix : hasPrefix (bytes "CSeq") (bytes "CSeq:" ++ [32] ++ dec n ++ (crlf ++ rest)) := by
    rw [List.append_assoc, List.append_assoc]
    exact hasPrefix_iff.mpr ((by decide : bytes "CSeq" <+: bytes "CSeq:").trans (List.prefix_append _ _))
  rw [hname]
  refine ⟨?_, ?_⟩
  · rw [Handling.reqHdr, if_pos hprefix, Handling.cseqHdr, sscanf_hdr]
    simp only [uint_natCast hn]
  · rw [Handling.cseqFound, hprefix, sscanf_hdr]
    rfl

lemma reqHdr_session {id : ℕ} (hid : id < 2 ^ 64) (hknown : env.rtspSessIdExist id) (rest : Bytes) :
    h.reqHdr env (bytes "Session: " ++ dec id ++ (crlf ++ rest)) = .ok ({ h with
      req.sessId := id
      resp.sessId := id }, true) := by
  have hname : bytes "Session: " = bytes "Session:" ++ [32] := by decide
  have hcseq : hasPrefix (bytes "CSeq") (bytes "Session:" ++ ([32] ++ (dec id ++ (crlf ++ rest)))) = false :=
    hasPrefix_ne (by decide) _
  have hprefix : hasPrefix (bytes "Session") (bytes "Session:" ++ ([32] ++ (dec id ++ (crlf ++ rest)))) :=
    hasPrefix_iff.mpr ((by decide : bytes "Session" <+: bytes "Session:").trans (List.prefix_append _ _))
  have hscan := sscanf_hdr (bytes "Session:") id rest
  simp only [List.append_assoc] at hscan
  rw [hname, Handling.reqHdr]
  simp only [List.append_assoc, hcseq, hprefix, Bool.false_eq_true, if_false, if_true,
    Handling.sessionHdr, hscan, ulong_natCast hid, hknown]

lemma reqHdr_other {name : Bytes} (hname : ∀ tag ∈ [bytes "CSeq", bytes "Session", bytes "Transport"],
      ¬ tag <+: name ∧ ¬ name <+: tag) (rest : Bytes) :
    h.reqHdr env (name ++ rest) = .ok (h, true) ∧ Handling.cseqFound (name ++ rest) = false := by
  have hne : ∀ tag ∈ [bytes "CSeq", bytes "Session", bytes "Transport"],
      hasPrefix tag (name ++ rest) = false := fun tag htag => hasPrefix_ne (hname tag htag) rest
  have hcseq := hne (bytes "CSeq") (by simp)
  have hsession := hne (bytes "Session") (by simp)
  have htransport := hne (bytes "Transport") (by simp)
  refine ⟨?_, ?_⟩
  · rw [Handling.reqHdr]
    simp only [hcseq, hsession, htransport, Bool.false_eq_true, if_false, ite_self]
  · rw [Handling.cseqFound, hcseq]
    rfl

lemma cseqFound_ne {name : Bytes} (hname : ¬ bytes "CSeq" <+: name ∧ ¬ name <+: bytes "CSeq") (rest : Bytes) :
    Handling.cseqFound (name ++ rest) = false := by
  rw [Handling.cseqFound, hasPrefix_ne hname]
  rfl

lemma reqHdrs_cons {line next : Bytes} {found : Bool} (hstep : h.reqHdr env line = .ok (h', true))
    (hnext : getNextLine line = some next) :
    h.reqHdrs env found line = h'.reqHdrs env (found || Handling.cseqFound line) next := by
  rw [Handling.reqHdrs, hstep, ok_bind]
  simp only [if_true]
  split
  · next hnone => cases hnone.symm.trans hnext
  · next line' hsome =>
    obtain rfl := Option.some.inj (hsome.symm.trans hnext)
    rfl

lemma reqHdrs_last {line : Bytes} {found : Bool} (hstep : h.reqHdr env line = .ok (h', true))
    (hnext : getNextLine line = none) :
    h.reqHdrs env found line = .ok (h', found || Handling.cseqFound line) := by
  rw [Handling.reqHdrs, hstep, ok_bind]
  simp only [if_true]
  split
  · rfl
  · next line' hsome => cases hsome.symm.trans hnext

end Headers

section Transport

variable {h h' : Handling} {env : ParseEnv}

lemma isField_dec (n : ℕ) : isField (dec n) := by
  intro c hc
  have hdigit := isDigit_of_mem_dec hc
  simp only [List.mem_cons, List.not_mem_nil, or_false, not_or]
  refine ⟨?_, ?_, ?_⟩ <;> rintro rfl <;> exact absurd hdigit (by decide)

lemma isField.append {w w' : Bytes} (h : isField w) (h' : isField w') : isField (w ++ w') :=
  fun c hc => (List.mem_append.mp hc).elim (h c) (h' c)

lemma sscanf_pair (name : Bytes) (a b : ℕ) {rest : Bytes} (hrest : ∀ c ∈ rest.head?, isDigit c = false) :
    sscanf (lits name ++ [.int, .lit 45, .int]) (name ++ (dec a ++ 45 :: (dec b ++ rest)))
      = [.num a, .num b] := by
  have hdash : ∀ c ∈ ((45 : UInt8) :: (dec b ++ rest)).head?, isDigit c = false := by
    rintro c hc
    obtain rfl := Option.some.inj hc
    rfl
  rw [sscanf_lits, sscanf_int _ a hdash]
  change .num (a : ℤ) :: (scan (.lit 45 :: [.int]) (45 :: (dec b ++ rest))).1 = _
  rw [scan, if_pos rfl]
  exact congrArg _ (sscanf_int [] b hrest)

example : hasPrefix (bytes "interleaved") (bytes "client_port=1-2") = false := by decide +kernel

lemma transportField_tcp (rest : Bytes) :
    h.transportField (bytes "RTP/AVP/TCP" ++ rest) = ({ h with intlvdMode := true }, true) :=
  if_pos (hasPrefix_append _ rest)

lemma transportField_udp (rest : Bytes) :
    h.transportField (bytes "RTP/AVP/UDP" ++ rest) = ({ h with intlvdMode := false }, true) := by
  rw [Handling.transportField, hasPrefix_ne (by decide +kernel), if_neg Bool.false_ne_true,
    if_pos (.inl (hasPrefix_append _ rest))]

lemma transportField_unicast (rest : Bytes) :
    h.transportField (bytes "unicast" ++ rest) = (h, true) := by
  have hne : ∀ tag ∈ [bytes "RTP/AVP/TCP", bytes "RTP/AVP/UDP", bytes "RTP/AVP"],
      ¬ tag <+: bytes "unicast" ∧ ¬ bytes "unicast" <+: tag := by decide +kernel
  rw [Handling.transportField, hasPrefix_ne (hne _ (by simp)), hasPrefix_ne (hne _ (by simp)),
    hasPrefix_ne (hne _ (by simp)), if_pos (hasPrefix_append _ rest)]
  rfl

lemma transportField_interleaved {a b : ℕ} (ha : a < 2 ^ 7) (hb : b < 2 ^ 7) (rest : Bytes) :
    h.transportField (bytes "interleaved=" ++ (dec a ++ 45 :: (dec b ++ (crlf ++ rest)))) = ({ h with
      req.transport.rtpChn := a
      req.transport.rtcpChn := b }, true) := by
  have hne : ∀ tag ∈ [bytes "RTP/AVP/TCP", bytes "RTP/AVP/UDP", bytes "RTP/AVP", bytes "unicast",
      bytes "mode", bytes "client_port"], ¬ tag <+: bytes "interleaved=" ∧ ¬ bytes "interleaved=" <+: tag := by
    decide +kernel
  have hprefix : ∀ rest, hasPrefix (bytes "interleaved") (bytes "interleaved=" ++ rest) :=
    fun rest => hasPrefix_iff.mpr
      ((by decide +kernel : bytes "interleaved" <+: bytes "interleaved=").trans (List.prefix_append _ rest))
  rw [Handling.transportField, hasPrefix_ne (hne _ (by simp)), hasPrefix_ne (hne _ (by simp)),
    hasPrefix_ne (hne _ (by simp)), hasPrefix_ne (hne _ (by simp)), hasPrefix_ne (hne _ (by simp)),
    hasPrefix_ne (hne _ (by simp)), hprefix, Handling.interleaved,
    sscanf_pair _ a b (not_isDigit_crlf rest)]
  have hca : char a = a := char_of_lt (by omega) (by omega)
  have hcb : char b = b := char_of_lt (by omega) (by omega)
  simp only [Bool.false_eq_true, or_self, if_false, if_true, hca, hcb]

lemma transportField_clientPort {a b : ℕ} (ha : a < 2 ^ 16) (hb : b < 2 ^ 16) (rest : Bytes) :
    h.transportField (bytes "client_port=" ++ (dec a ++ 45 :: (dec b ++ (crlf ++ rest)))) = ({ h with
      req.transport.rtpCliPort := a
      req.transport.rtcpCliPort := b }, true) := by
  have hne : ∀ tag ∈ [bytes "RTP/AVP/TCP", bytes "RTP/AVP/UDP", bytes "RTP/AVP", bytes "unicast",
      bytes "mode"], ¬ tag <+: bytes "client_port=" ∧ ¬ bytes "client_port=" <+: tag := by
    decide +kernel
  have hprefix : ∀ rest, hasPrefix (bytes "client_port") (bytes "client_port=" ++ rest) :=
    fun rest => hasPrefix_iff.mpr
      ((by decide +kernel : bytes "client_port" <+: bytes "client_port=").trans (List.prefix_append _ rest))
  rw [Handling.transportField, hasPrefix_ne (hne _ (by simp)), hasPrefix_ne (hne _ (by simp)),
    hasPrefix_ne (hne _ (by simp)), hasPrefix_ne (hne _ (by simp)), hasPrefix_ne (hne _ (by simp)),
    hprefix, Handling.clientPort, sscanf_pair _ a b (not_isDigit_crlf rest)]
  simp only [Bool.false_eq_true, or_self, if_false, if_true, ushort_natCast ha, ushort_natCast hb]

def transportValue (intlvd : Bool) (a b : ℕ) : Bytes :=
  bytes (if intlvd then "RTP/AVP/TCP" else "RTP/AVP/UDP") ++ 59 :: (bytes "unicast"
    ++ 59 :: (bytes (if intlvd then "interleaved=" else "client_port=") ++ (dec a ++ 45 :: dec b)))

def setTransport (h : Handling) (intlvd : Bool) (a b : ℕ) : Handling :=
  if intlvd then { h with
    intlvdMode := true
    req.transport.rtpChn := a
    req.transport.rtcpChn := b }
  else { h with
    intlvdMode := false
    req.transport.rtpCliPort := a
    req.transport.rtcpCliPort := b }

lemma transportFields_value {intlvd : Bool} {a b : ℕ} (ha : a < 2 ^ 16) (hb : b < 2 ^ 16)
    (hchn : intlvd → a < 2 ^ 7 ∧ b < 2 ^ 7) (rest : Bytes) :
    h.transportFields (transportValue intlvd a b ++ (crlf ++ rest))
      = .ok (setTransport h intlvd a b, true) := by
  have hunicast : isField (bytes "unicast") ∧ bytes "unicast" ≠ [] :=
      ⟨List.all_iff_forall_prop.mp (by decide +kernel), by decide +kernel⟩
  have hpair : isField (dec a ++ 45 :: dec b) :=
    (isField_dec a).append fun c hc => (List.mem_cons.mp hc).elim (fun h => h ▸ by decide) (isField_dec b c)
  cases intlvd with
  | true =>
    have htcp : isField (bytes "RTP/AVP/TCP") ∧ bytes "RTP/AVP/TCP" ≠ [] :=
      ⟨List.all_iff_forall_prop.mp (by decide +kernel), by decide +kernel⟩
    have hname : isField (bytes "interleaved=") ∧ bytes "interleaved=" ≠ [] :=
      ⟨List.all_iff_forall_prop.mp (by decide +kernel), by decide +kernel⟩
    obtain ⟨ha7, hb7⟩ := hchn rfl
    simp only [transportValue, if_true, List.append_assoc, List.cons_append]
    rw [Handling.transportFields, fields_semicolon htcp.1 htcp.2 hunicast.1 hunicast.2 (transportField_tcp _),
      fields_semicolon hunicast.1 hunicast.2 hname.1 hname.2 (transportField_unicast _)]
    have hlast := @fields_last _ rest _ Handling.transportField { h with intlvdMode := true } _
      (hname.1.append hpair) (List.append_ne_nil_of_left_ne_nil hname.2 _) (by
        simp only [List.append_assoc, List.cons_append]
        exact transportField_interleaved ha7 hb7 rest)
    simp only [List.append_assoc, List.cons_append] at hlast
    exact hlast
  | false =>
    have hudp : isField (bytes "RTP/AVP/UDP") ∧ bytes "RTP/AVP/UDP" ≠ [] :=
      ⟨List.all_iff_forall_prop.mp (by decide +kernel), by decide +kernel⟩
    have hname : isField (bytes "client_port=") ∧ bytes "client_port=" ≠ [] :=
      ⟨List.all_iff_forall_prop.mp (by decide +kernel), by decide +kernel⟩
    simp only [transportValue, Bool.false_eq_true, if_false, List.append_assoc, List.cons_append]
    rw [Handling.transportFields, fields_semicolon hudp.1 hudp.2 hunicast.1 hunicast.2 (transportField_udp _),
      fields_semicolon hunicast.1 hunicast.2 hname.1 hname.2 (transportField_unicast _)]
    have hlast := @fields_last _ rest _ Handling.transportField { h with intlvdMode := false } _
      (hname.1.append hpair) (List.append_ne_nil_of_left_ne_nil hname.2 _) (by
        simp only [List.append_assoc, List.cons_append]
        exact transportField_clientPort ha hb rest)
    simp only [List.append_assoc, List.cons_append] at hlast
    exact hlast

lemma reqHdr_transport {intlvd : Bool} {a b : ℕ} (ha : a < 2 ^ 16) (hb : b < 2 ^ 16)
    (hchn : intlvd → a < 2 ^ 7 ∧ b < 2 ^ 7) (rest : Bytes) :
    h.reqHdr env (bytes "Transport: " ++ transportValue intlvd a b ++ (crlf ++ rest))
      = .ok (setTransport h intlvd a b, true) := by
  have hne : ∀ tag ∈ [bytes "CSeq", bytes "Session", bytes "User-Agent"],
      ¬ tag <+: bytes "Transport: " ∧ ¬ bytes "Transport: " <+: tag := by decide +kernel
  have hprefix : ∀ rest, hasPrefix (bytes "Transport") (bytes "Transport: " ++ rest) :=
    fun rest => hasPrefix_iff.mpr
      ((by decide +kernel : bytes "Transport" <+: bytes "Transport: ").trans (List.prefix_append _ rest))
  rw [List.append_assoc, Handling.reqHdr, hasPrefix_ne (hne _ (by simp)), hasPrefix_ne (hne _ (by simp)),
    hasPrefix_ne (hne _ (by simp)), hprefix, Handling.transportHdr, Handling.parseHdrTransport,
    if_pos (hasPrefix_append _ _), List.drop_left, transportFields_value ha hb hchn]
  rfl

end Transport

section Lines

variable {env : ParseEnv}

structure HdrLine (env : ParseEnv) where
  line : Bytes
  effect : Handling → Handling
  cseq : Bool
  isLine : isLine line
  ne : line ≠ []
  reqHdr : ∀ (h : Handling) rest, h.reqHdr env (line ++ (crlf ++ rest)) = .ok (effect h, true)
  found : ∀ rest, Handling.cseqFound (line ++ (crlf ++ rest)) = cseq

lemma reqHdrs_lines (hdrs : List (HdrLine env)) (hne : hdrs ≠ []) (h : Handling) (found : Bool) :
    h.reqHdrs env found (joined (hdrs.map HdrLine.line) crlf)
      = .ok (hdrs.foldl (fun h x => x.effect h) h, found || hdrs.any HdrLine.cseq) := by
  induction hdrs generalizing h found with
  | nil => exact absurd rfl hne
  | cons x hdrs ih =>
    cases hdrs with
    | nil =>
      rw [List.map_singleton, joined_cons, reqHdrs_last (x.reqHdr h _), x.found]
      · simp only [List.foldl_cons, List.foldl_nil, List.any_cons, List.any_nil, Bool.or_false]
      · exact getNextLine_last x.isLine []
    | cons y hdrs =>
      have hnext : getNextLine (x.line ++ (crlf ++ joined ((y :: hdrs).map HdrLine.line) crlf))
          = some (joined ((y :: hdrs).map HdrLine.line) crlf) := by
        rw [← joined_cons, List.map_cons, getNextLine_joined x.isLine y.isLine y.ne]
      rw [List.map_cons, joined_cons, reqHdrs_cons (x.reqHdr h _) hnext, x.found,
        ih (List.cons_ne_nil y hdrs), Bool.or_assoc]
      rfl

lemma isLine_dec (n : ℕ) : isLine (dec n) := by
  intro c hc
  have hdigit := isDigit_of_mem_dec hc
  refine ⟨?_, ?_⟩ <;> rintro rfl <;> exact absurd hdigit (by decide)

lemma append_ne {l l' : Bytes} (h : l ≠ []) : l ++ l' ≠ [] := List.append_ne_nil_of_left_ne_nil h l'

def cseqLine (n : UInt32) : HdrLine env where
  line := bytes "CSeq: " ++ dec n.toNat
  effect h := { h with
    req.cseq := n.toNat
    resp.cseq := n.toNat }
  cseq := true
  isLine := isLine.append (List.all_iff_forall_prop.mp (by decide +kernel)) (isLine_dec _)
  ne := append_ne (by decide)
  reqHdr _ rest := (reqHdr_cseq (UInt32.toNat_lt n) rest).1
  found rest := (@reqHdr_cseq ⟨.init, false, ⟨0, .main, none⟩, .fresh, .fresh⟩ env _ (UInt32.toNat_lt n) rest).2

def otherLine (name value : Bytes) (hline : isLine (name ++ value)) (hne : name ≠ [])
    (hname : ∀ tag ∈ [bytes "CSeq", bytes "Session", bytes "Transport"],
      ¬ tag <+: name ∧ ¬ name <+: tag) : HdrLine env where
  line := name ++ value
  effect := id
  cseq := false
  isLine := hline
  ne := append_ne hne
  reqHdr h rest := by
    rw [List.append_assoc]
    exact (reqHdr_other hname _).1
  found rest := by
    rw [List.append_assoc]
    exact cseqFound_ne (hname _ (by simp)) _

def sessionLine (id : UInt64) (hknown : env.rtspSessIdExist id.toNat) : HdrLine env where
  line := bytes "Session: " ++ dec id.toNat
  effect h := { h with
    req.sessId := id.toNat
    resp.sessId := id.toNat }
  cseq := false
  isLine := isLine.append (List.all_iff_forall_prop.mp (by decide +kernel)) (isLine_dec _)
  ne := append_ne (by decide)
  reqHdr _ rest := reqHdr_session (UInt64.toNat_lt id) hknown rest
  found rest := by
    rw [List.append_assoc]
    exact cseqFound_ne (by decide) _

lemma isLine_cons {c : UInt8} {l : Bytes} (hc : c ≠ 13 ∧ c ≠ 10) (h : isLine l) : isLine (c :: l) :=
  fun d hd => (List.mem_cons.mp hd).elim (fun he => he ▸ hc) (h d)

lemma isLine_transportValue (intlvd : Bool) (a b : ℕ) : isLine (transportValue intlvd a b) := by
  have hmode : ∀ intlvd : Bool, isLine (bytes (if intlvd then "RTP/AVP/TCP" else "RTP/AVP/UDP")) :=
    fun _ => List.all_iff_forall_prop.mp (by decide +kernel +revert)
  have hname : ∀ intlvd : Bool, isLine (bytes (if intlvd then "interleaved=" else "client_port=")) :=
    fun _ => List.all_iff_forall_prop.mp (by decide +kernel +revert)
  have hsemi : (59 : UInt8) ≠ 13 ∧ (59 : UInt8) ≠ 10 := by decide
  have hdash : (45 : UInt8) ≠ 13 ∧ (45 : UInt8) ≠ 10 := by decide
  have hpair := (isLine_dec a).append (isLine_cons hdash (isLine_dec b))
  have hunicast : isLine (bytes "unicast") := List.all_iff_forall_prop.mp (by decide +kernel)
  exact (hmode intlvd).append (isLine_cons hsemi (hunicast.append (isLine_cons hsemi
    ((hname intlvd).append hpair))))

def transportLine (intlvd : Bool) (a b : ℕ) (ha : a < 2 ^ 16) (hb : b < 2 ^ 16)
    (hchn : intlvd → a < 2 ^ 7 ∧ b < 2 ^ 7) : HdrLine env where
  line := bytes "Transport: " ++ transportValue intlvd a b
  effect h := setTransport h intlvd a b
  cseq := false
  isLine := isLine.append (List.all_iff_forall_prop.mp (by decide +kernel)) (isLine_transportValue intlvd a b)
  ne := append_ne (by decide)
  reqHdr _ rest := reqHdr_transport ha hb hchn rest
  found rest := by
    rw [List.append_assoc]
    exact cseqFound_ne (by decide) _

lemma isLine_two {n : ℕ} (h : n < 100) : isLine (Tm.two n) := by
  have hdigit : ∀ d < 10, digit d ≠ 13 ∧ digit d ≠ 10 := by decide
  exact isLine_cons (hdigit _ (by omega)) (isLine_cons (hdigit _ (by omega)) fun c hc => nomatch hc)

lemma isLine_gmt (tm : Tm) : isLine tm.gmt := by
  have hday : ∀ i : Fin 7, isLine (Tm.wdays.getD i []) :=
    fun _ => List.all_iff_forall_prop.mp (by decide +kernel +revert)
  have hmonth : ∀ i : Fin 12, isLine (Tm.months.getD i []) :=
    fun _ => List.all_iff_forall_prop.mp (by decide +kernel +revert)
  have hseps : isLine (bytes ", ") ∧ isLine (bytes " ") ∧ isLine (bytes ":") ∧ isLine (bytes " GMT") := by
    refine ⟨?_, ?_, ?_, ?_⟩ <;> exact List.all_iff_forall_prop.mp (by decide +kernel)
  obtain ⟨hcomma, hspace, hcolon, hgmt⟩ := hseps
  exact ((((((((((((((hday _).append hcomma).append (hmonth _)).append hspace).append
    (isLine_two (by omega))).append hspace).append (isLine_dec _)).append hspace).append
    (isLine_two (by omega))).append hcolon).append (isLine_two (by omega))).append hcolon).append
    (isLine_two (by omega))).append hgmt)

end Lines

section Asked

open LibRtspClient (MediaType)

inductive Asked
  | options
  | describe
  | setup (media : MediaType)
  | play
  | teardown

namespace Asked

def method : Asked → Method
  | options => .options
  | describe => .describe
  | setup _ => .setup
  | play => .play
  | teardown => .teardown

-- `todo` is the method when a request is made.
def req (s : LibRtspClient.RtspSess) (a : Asked) : LibRtspClient.RtspReq :=
  let s := { s with todo := some a.method }
  match a with
  | options => s.optionsReq
  | describe => s.describeReq
  | setup media => s.setupReq (some media)
  | play => s.playReq
  | teardown => s.teardownReq

end Asked

variable {s : LibRtspClient.RtspSess} {env : ParseEnv} {a : Asked}

/-- The URI of the session is `rtsp://host/avC_T`, and the server knows the session id if there is one. -/
structure Asks (s : LibRtspClient.RtspSess) (env : ParseEnv) (a : Asked) : Prop where
  uri : ∃ host chnNo chnType, s.uri = chnUri host chnNo chnType ∧ host ≠ [] ∧ (47 : UInt8) ∉ host
    ∧ isWord host ∧ chnNo < 8 ∧ chnType ≤ 1
  length : s.uri.length < 200
  cseq : s.curCseq.toNat < 2 ^ 31
  known : s.sessId ≠ 0 → env.rtspSessIdExist s.sessId.toNat
  track : ∀ media, a = .setup media → ∃ sdp, s.sdpInfo = some sdp ∧ isWord (LibRtspClient.track sdp media)
  allocated : env.dupVer ∧ env.dupServer ∧ env.dupUri ∧ env.dupReqVer

lemma isWord_dec (n : ℕ) : isWord (dec n) := by
  intro c hc
  have hdigit := isDigit_of_mem_dec hc
  refine ⟨?_, ?_, ?_⟩ <;> rintro rfl <;> exact absurd hdigit (by decide)

lemma isWord_cons {c : UInt8} {w : Bytes} (hc : c ≠ 32 ∧ c ≠ 13 ∧ c ≠ 10) (h : isWord w) : isWord (c :: w) :=
  fun d hd => (List.mem_cons.mp hd).elim (fun he => he ▸ hc) (h d)

lemma isWord_chnUri {host : Bytes} (h : isWord host) (chnNo chnType : ℕ) :
    isWord (chnUri host chnNo chnType) := by
  have hclosed : isWord (bytes "rtsp://") ∧ isWord (bytes "/av") :=
    ⟨List.all_iff_forall_prop.mp (by decide +kernel), List.all_iff_forall_prop.mp (by decide +kernel)⟩
  exact hclosed.1.append (h.append (hclosed.2.append ((isWord_dec _).append
    (isWord_cons (by decide) (isWord_dec _)))))

-- The name of a track that is a URI of its own.
def isUri (track : Bytes) : Bool := (Bytes.find (bytes "rtsp://") track).isSome

/-- With the name of its track behind the URI of the session only the video is taken for what it is; a track
with a URI of its own is taken for what this URI locates. -/
def Takes (s : LibRtspClient.RtspSess) (env : ParseEnv) (media : MediaType) : Prop :=
  ∀ sdp, s.sdpInfo = some sdp →
    if isUri (LibRtspClient.track sdp media) then
      Locates env ((LibRtspClient.track sdp media).take (LibRtspClient.maxUriSz - 1)) (serverMedia media)
    else media = .video

lemma Asks.uri_ne (h : Asks s env a) : s.uri ≠ [] := by
  obtain ⟨host, chnNo, chnType, huri, -⟩ := h.uri
  have hbytes : bytes "rtsp://" ≠ [] := by decide +kernel
  exact huri ▸ List.append_ne_nil_of_left_ne_nil hbytes _

lemma Asks.isWord_uri (h : Asks s env a) : isWord s.uri := by
  obtain ⟨host, chnNo, chnType, huri, -, -, hword, -⟩ := h.uri
  exact huri ▸ isWord_chnUri hword _ _

lemma Asks.locates (h : Asks s env a) (suffix : Bytes) (hsuffix : ∀ c ∈ suffix.head?, c = 47) :
    Locates env (s.uri ++ suffix) .video := by
  obtain ⟨host, chnNo, chnType, huri, hne, hslash, -, hno, htype⟩ := h.uri
  exact huri ▸ locates_chn hslash hne hsuffix hno htype

lemma setup_uri {sdp : LibRtspClient.SdpInfo} (hsdp : s.sdpInfo = some sdp) (media : MediaType) :
    ((Asked.setup media).req s).uri = if isUri (LibRtspClient.track sdp media) then
        (LibRtspClient.track sdp media).take (LibRtspClient.maxUriSz - 1)
      else (s.uri ++ bytes "/" ++ LibRtspClient.track sdp media).take (LibRtspClient.maxUriSz - 1) := by
  change LibRtspClient.RtspSess.makeRtspUri { s with todo := some .setup } media = _
  rw [LibRtspClient.RtspSess.makeRtspUri, if_pos rfl, hsdp]
  rfl

lemma take_uri {s : LibRtspClient.RtspSess} (hlen : s.uri.length < 200) (track : Bytes) :
    (s.uri ++ bytes "/" ++ track).take (LibRtspClient.maxUriSz - 1)
      = s.uri ++ 47 :: track.take (254 - s.uri.length) := by
  have hbytes : bytes "/" = [47] := by decide
  obtain ⟨n, hn⟩ : ∃ n, 255 - s.uri.length = n + 1 := ⟨254 - s.uri.length, by omega⟩
  rw [hbytes, List.append_assoc, List.singleton_append, List.take_append,
    List.take_of_length_le (by rw [LibRtspClient.maxUriSz]; omega)]
  change s.uri ++ (47 :: track).take (255 - s.uri.length) = _
  rw [hn, List.take_succ_cons]
  congr 3
  omega

lemma Asks.req_uri (h : Asks s env a) : isWord (a.req s).uri ∧ (a.req s).uri ≠ [] ∧ (a.req s).uri.length < 256 := by
  have hlen := h.length
  have hplain : isWord s.uri ∧ s.uri ≠ [] ∧ s.uri.length < 256 := ⟨h.isWord_uri, h.uri_ne, by omega⟩
  cases a with
  | setup media =>
    obtain ⟨sdp, hsdp, htrack⟩ := h.track media rfl
    rw [setup_uri hsdp media]
    split_ifs with habs
    · refine ⟨fun c hc => htrack c (List.mem_of_mem_take hc), ?_, ?_⟩
      · intro hnil
        rcases List.take_eq_nil_iff.mp hnil with hzero | hnil
        · exact absurd hzero (by decide)
        · rw [hnil] at habs
          exact absurd habs (by decide +kernel)
      · exact Nat.lt_of_le_of_lt (List.length_take_le _ _) (by decide)
    · refine ⟨?_, ?_, Nat.lt_of_le_of_lt (List.length_take_le _ _) (by decide)⟩
      · rw [take_uri hlen]
        exact hplain.1.append (isWord_cons (by decide) fun c hc => htrack c (List.mem_of_mem_take hc))
      · rw [take_uri hlen]
        exact List.append_ne_nil_of_left_ne_nil hplain.2.1 _
  | _ => exact hplain

lemma Asks.locates_plain (h : Asks s env a) (ha : ∀ media, a ≠ .setup media) : Locates env (a.req s).uri .video := by
  have hplain : Locates env s.uri .video := by
    simpa using h.locates [] (by simp)
  cases a with
  | setup media => exact absurd rfl (ha media)
  | _ => exact hplain

lemma Locates.unique {uri : Bytes} {m m' : LibRtspServer.MediaType} (hlen : uri.length < 256)
    (h : Locates env uri m) (h' : Locates env uri m') : m = m' := by
  obtain ⟨strm, media, code, -, hmedia⟩ := parseRtspUri_spec env hlen
    ⟨.init, false, ⟨0, .main, none⟩, .fresh, .fresh⟩ rfl rfl
  exact ((hmedia m).mpr h).2.symm.trans ((hmedia m').mpr h').2

lemma Asks.locates_setup_iff {media : MediaType} (h : Asks s env (.setup media)) :
    Locates env ((Asked.setup media).req s).uri (serverMedia media) ↔ Takes s env media := by
  obtain ⟨sdp, hsdp, htrack⟩ := h.track media rfl
  have hlen := h.req_uri.2.2
  rw [setup_uri hsdp media] at hlen ⊢
  have htakes : Takes s env media ↔ if isUri (LibRtspClient.track sdp media) then
      Locates env ((LibRtspClient.track sdp media).take (LibRtspClient.maxUriSz - 1)) (serverMedia media)
      else media = .video :=
    ⟨fun ht => ht sdp hsdp, fun ht sdp' hsdp' => Option.some.inj (hsdp.symm.trans hsdp') ▸ ht⟩
  rw [htakes]
  split_ifs at hlen ⊢ with habs
  · rfl
  · rw [take_uri h.length] at hlen ⊢
    have hvideo := h.locates (47 :: (LibRtspClient.track sdp media).take (254 - s.uri.length)) (by simp)
    constructor
    · intro hl
      cases media with
      | video => rfl
      | audio => exact nomatch hl.unique hlen hvideo
    · rintro rfl
      exact hvideo

def transportPair (s : LibRtspClient.RtspSess) (media : MediaType) : ℕ × ℕ :=
  if s.intlvdMode then (media.toNat * 2, media.toNat * 2 + 1)
  else ((s.rtpRtcp media).rtpPort.toNat, (s.rtpRtcp media).rtcpPort.toNat)

lemma transportPair_lt (s : LibRtspClient.RtspSess) (media : MediaType) :
    (transportPair s media).1 < 2 ^ 16 ∧ (transportPair s media).2 < 2 ^ 16
      ∧ (s.intlvdMode → (transportPair s media).1 < 2 ^ 7 ∧ (transportPair s media).2 < 2 ^ 7) := by
  have hmedia : media.toNat ≤ 1 := by cases media <;> decide
  rw [transportPair]
  split
  · exact ⟨by dsimp only; omega, by dsimp only; omega, fun _ => ⟨by dsimp only; omega, by dsimp only; omega⟩⟩
  · next hmode => exact ⟨UInt16.toNat_lt _, UInt16.toNat_lt _, fun h => absurd h hmode⟩

lemma makeTransportHdr_eq (s : LibRtspClient.RtspSess) (media : MediaType) :
    s.makeTransportHdr media
      = transportValue s.intlvdMode (transportPair s media).1 (transportPair s media).2 := by
  have htcp : bytes "RTP/AVP/TCP;unicast;interleaved="
      = bytes "RTP/AVP/TCP" ++ 59 :: (bytes "unicast" ++ 59 :: bytes "interleaved=") := by decide +kernel
  have hudp : bytes "RTP/AVP/UDP;unicast;client_port="
      = bytes "RTP/AVP/UDP" ++ 59 :: (bytes "unicast" ++ 59 :: bytes "client_port=") := by decide +kernel
  have hdash : bytes "-" = [45] := by decide
  rw [LibRtspClient.RtspSess.makeTransportHdr, transportValue, transportPair]
  split
  · simp only [htcp, hdash, List.append_assoc, List.cons_append, List.nil_append]
  · simp only [hudp, hdash, List.append_assoc, List.cons_append, List.nil_append]

def sessionLines (s : LibRtspClient.RtspSess) (h : s.sessId ≠ 0 → env.rtspSessIdExist s.sessId.toNat) :
    List (HdrLine env) :=
  if hid : s.sessId ≠ 0 then [sessionLine s.sessId (h hid)] else []

def methodLines (s : LibRtspClient.RtspSess) : Asked → List (HdrLine env)
  | .options => []
  | .describe => [otherLine (bytes "Accept: ") (bytes "application/sdp")
      (List.all_iff_forall_prop.mp (by decide +kernel)) (by decide +kernel) (by decide +kernel)]
  | .setup media => [transportLine s.intlvdMode (transportPair s media).1 (transportPair s media).2
      (transportPair_lt s media).1 (transportPair_lt s media).2.1 (transportPair_lt s media).2.2]
  | .play => [otherLine (bytes "Range: ") (bytes "npt=0.000-")
      (List.all_iff_forall_prop.mp (by decide +kernel)) (by decide +kernel) (by decide +kernel)]
  | .teardown => []

def commonLines (cseq : UInt32) (tm : Tm) : List (HdrLine env) :=
  [cseqLine cseq,
    otherLine (bytes "Date: ") tm.gmt
      (isLine.append (List.all_iff_forall_prop.mp (by decide +kernel)) (isLine_gmt tm))
      (by decide +kernel) (by decide +kernel),
    otherLine (bytes "User-Agent: ") (bytes "Zmodo RTSP Client")
      (List.all_iff_forall_prop.mp (by decide +kernel)) (by decide +kernel) (by decide +kernel)]

def hdrLines (tm : Tm) (h : Asks s env a) : List (HdrLine env) :=
  commonLines s.curCseq tm ++ sessionLines s h.known ++ methodLines s a

def firstLine (s : LibRtspClient.RtspSess) (a : Asked) : Bytes :=
  a.method.token ++ bytes " " ++ (a.req s).uri ++ bytes " " ++ rtspVersion

lemma reqLines_eq (tm : Tm) (h : Asks s env a) :
    LibRtspClient.reqLines s.sessId tm (a.req s)
      = firstLine s a :: (hdrLines tm h).map HdrLine.line := by
  have hcseq : decInt ((s.curCseq.toNat : ℤ).bmod (2 ^ 32)) = dec s.curCseq.toNat := by
    have hlt := h.cseq
    rw [Int.bmod_def, decInt]
    split <;> split <;> first | omega | (congr 1; omega)
  have hagent : bytes "User-Agent: Zmodo RTSP Client"
      = bytes "User-Agent: " ++ bytes "Zmodo RTSP Client" := by decide +kernel
  have hsession : (if s.sessId ≠ 0 then [bytes "Session: " ++ dec s.sessId.toNat] else [])
      = (sessionLines s h.known).map HdrLine.line := by
    rw [sessionLines]
    split <;> rfl
  have hfirst : (a.req s).method.token ++ bytes " " ++ (a.req s).uri ++ bytes " " ++ (a.req s).ver
      = firstLine s a := by cases a <;> rfl
  have hnumber : (a.req s).cseq = s.curCseq := by cases a <;> rfl
  rw [LibRtspClient.reqLines, hsession, hfirst, hnumber, hcseq, hagent, hdrLines, List.map_append,
    List.map_append]
  -- what only the method of the request asks for
  cases a with
  | setup media =>
    exact congrArg (fun t => _ ++ [bytes "Transport: " ++ t]) (makeTransportHdr_eq s media)
  | _ => rfl

/-- What the server has found in a request, with the status and the medium that its URI gives. -/
structure Parsed (s : LibRtspClient.RtspSess) (a : Asked) (code : LibRtspServer.StatusCode)
    (m : LibRtspServer.MediaType) (h : Handling) : Prop where
  state : code = .ok → h.state = .parsed
  method : h.req.method = some a.method
  cseq : h.req.cseq = s.curCseq.toNat ∧ h.resp.cseq = s.curCseq.toNat
  sessId : h.req.sessId = s.sessId.toNat ∧ h.resp.sessId = s.sessId.toNat
  ver : h.resp.ver = some rtspVersion
  status : h.resp.statusCode = code
  server : h.resp.server = some (bytes "Zmodo-RTSP-Server")
  media : h.req.media = m
  transport : ∀ media, a = .setup media → h.intlvdMode = s.intlvdMode
    ∧ if s.intlvdMode then h.req.transport.rtpChn = (transportPair s media).1
        ∧ h.req.transport.rtcpChn = (transportPair s media).2
      else h.req.transport.rtpCliPort = (transportPair s media).1
        ∧ h.req.transport.rtcpCliPort = (transportPair s media).2

lemma isLine_of_isWord {w : Bytes} (h : isWord w) : isLine w := fun c hc => (h c hc).2

structure AtHeaders (a : Asked) (code : LibRtspServer.StatusCode) (m : LibRtspServer.MediaType)
    (h : Handling) : Prop where
  state : h.state = .ready
  method : h.req.method = some a.method
  sessId : h.req.sessId = 0 ∧ h.resp.sessId = 0
  ver : h.resp.ver = some rtspVersion
  status : h.resp.statusCode = code
  server : h.resp.server = some (bytes "Zmodo-RTSP-Server")
  media : h.req.media = m

lemma AtHeaders.parsed {t : Handling} {code : LibRtspServer.StatusCode} {m : LibRtspServer.MediaType}
    (ht : AtHeaders a code m t) (tm : Tm) (h : Asks s env a) :
    Parsed s a code m ((hdrLines tm h).foldl (fun h x => x.effect h) t).parsed := by
  obtain ⟨hstate, hmethod, ⟨hreq, hresp⟩, hver, hstatus, hserver, hmedia⟩ := ht
  have hparsed : ∀ h : Handling, h.state = .ready →
      Parsed s a code m { h with state := if code = .ok then .parsed else .error } → Parsed s a code m h.parsed := by
    intro h hready hp
    have hcode : h.resp.statusCode = code := hp.status
    rwa [Handling.parsed, if_neg (by rw [hready]; exact nofun), hcode]
  rw [hdrLines, List.foldl_append, List.foldl_append]
  -- The common headers change the sequence number and the session id only.
  obtain ⟨u, hu, hustate, humethod, hucseq, husess, huver, hustatus, huserver, humedia⟩ :
      ∃ u : Handling, (sessionLines s h.known).foldl (fun h (x : HdrLine env) => x.effect h)
          ((commonLines s.curCseq tm).foldl (fun h (x : HdrLine env) => x.effect h) t) = u
        ∧ u.state = .ready ∧ u.req.method = some a.method
        ∧ (u.req.cseq = s.curCseq.toNat ∧ u.resp.cseq = s.curCseq.toNat)
        ∧ (u.req.sessId = s.sessId.toNat ∧ u.resp.sessId = s.sessId.toNat)
        ∧ u.resp.ver = some rtspVersion ∧ u.resp.statusCode = code
        ∧ u.resp.server = some (bytes "Zmodo-RTSP-Server") ∧ u.req.media = m := by
    refine ⟨_, rfl, ?_⟩
    rw [sessionLines]
    split
    · exact ⟨hstate, hmethod, ⟨rfl, rfl⟩, ⟨rfl, rfl⟩, hver, hstatus, hserver, hmedia⟩
    · next hzero =>
      have hid : s.sessId.toNat = 0 := by rw [not_not.mp hzero]; rfl
      exact ⟨hstate, hmethod, ⟨rfl, rfl⟩, ⟨hreq.trans hid.symm, hresp.trans hid.symm⟩, hver, hstatus,
        hserver, hmedia⟩
  rw [hu]
  cases a with
  | setup media =>
    change Parsed s _ code m (setTransport u s.intlvdMode _ _).parsed
    rw [setTransport]
    split
    · next hmode =>
      refine hparsed _ hustate ⟨fun hok => if_pos hok, humethod, hucseq, husess, huver, hustatus, huserver, humedia, ?_⟩
      rintro media' hmedia'
      obtain rfl : media = media' := by injection hmedia'
      exact ⟨hmode.symm, by rw [if_pos hmode]; exact ⟨rfl, rfl⟩⟩
    · next hmode =>
      refine hparsed _ hustate ⟨fun hok => if_pos hok, humethod, hucseq, husess, huver, hustatus, huserver, humedia, ?_⟩
      rintro media' hmedia'
      obtain rfl : media = media' := by injection hmedia'
      exact ⟨(Bool.eq_false_of_not_eq_true hmode).symm, by rw [if_neg hmode]; exact ⟨rfl, rfl⟩⟩
  | _ =>
    change Parsed s _ code m u.parsed
    exact hparsed _ hustate ⟨fun hok => if_pos hok, humethod, hucseq, husess, huver, hustatus, huserver, humedia, nofun⟩

lemma parse_request (h : Asks s env a) (tm : Tm) {t : Handling} (hstate : t.state = .ready)
    (hreq : t.req = .fresh) (hresp : t.resp = .fresh) :
    ∃ p code m, t.parseRtspReq env (LibRtspClient.produceRtspReq s.sessId tm (a.req s)) = .ok p
      ∧ Parsed s a code m p ∧ ∀ m', code = .ok ∧ m = m' ↔ Locates env (a.req s).uri m' := by
  obtain ⟨hword, huriNe, hlen⟩ := h.req_uri
  obtain ⟨hver, hserver, huri, hreqVer⟩ := h.allocated
  have hline : isLine (firstLine s a) := by
    have hclosed : isLine (bytes " ") ∧ isLine rtspVersion :=
      ⟨List.all_iff_forall_prop.mp (by decide +kernel), List.all_iff_forall_prop.mp (by decide +kernel)⟩
    exact ((((isLine_of_isWord (isWord_token _)).append hclosed.1).append (isLine_of_isWord hword)).append
      hclosed.1).append hclosed.2
  have htext : LibRtspClient.produceRtspReq s.sessId tm (a.req s)
      = firstLine s a ++ (crlf ++ joined ((hdrLines tm h).map HdrLine.line) crlf) := by
    rw [LibRtspClient.produceRtspReq, reqLines_eq tm h, joined_cons]
  have hnext : getNextLine (LibRtspClient.produceRtspReq s.sessId tm (a.req s))
      = some (joined ((hdrLines tm h).map HdrLine.line) crlf) := by
    rw [LibRtspClient.produceRtspReq, reqLines_eq tm h]
    exact getNextLine_joined hline (cseqLine s.curCseq : HdrLine env).isLine
      (cseqLine s.curCseq : HdrLine env).ne _ _
  have hne : hdrLines tm h ≠ [] := List.cons_ne_nil _ _
  have hany : (hdrLines tm h).any HdrLine.cseq = true := rfl
  let u : Handling := { t with
    req.method := some a.method
    req.uri := some (a.req s).uri
    resp.ver := LibRtspServer.strndup env.dupVer rtspVersion
    resp.server := LibRtspServer.strndup env.dupServer (bytes "Zmodo-RTSP-Server")
    resp.cseq := t.req.cseq
    resp.sessId := t.req.sessId }
  obtain ⟨strm, m, code, hu, hcode⟩ := parseRtspUri_spec env hlen u
    (congrArg LibRtspServer.RtspResp.statusCode hresp) (congrArg LibRtspServer.RtspReq.media hreq)
  rw [Handling.parseRtspReq, if_neg (not_not.mpr hstate), hnext, htext, firstLine]
  simp only [parseReqLine_word ⟨huri, hreqVer⟩ hword huriNe _, ok_bind, Handling.parseReqHdrs,
    reqHdrs_lines _ hne, hany, Bool.or_true, if_true]
  refine ⟨_, code, m, rfl, AtHeaders.parsed ?_ tm h, hcode⟩
  change AtHeaders a code m { Handling.parseRtspUri env u (a.req s).uri with req.ver := some rtspVersion }
  rw [hu]
  refine ⟨hstate, rfl, ?_, ?_, rfl, ?_, rfl⟩
  all_goals simp [u, hreq, LibRtspServer.RtspReq.fresh, LibRtspServer.strndup, hver, hserver]

end Asked

end SimpleCode.LibRtsp
