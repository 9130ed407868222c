import SimpleCode.Foundations.Exactness
import SimpleCode.LibRtspClient.RtspCli

set_option autoImplicit false

namespace SimpleCode.LibRtspClient

open Foundations Scan
open LibRtsp hiding Fault

structure Reading where
  skip : ℕ
  format : List Dir
  sizes : List ℕ

def texts (vals : List Val) : List Bytes :=
  vals.filterMap fun
    | .num _ => none
    | .text s => some s

def Inside (sizes : List ℕ) (vals : List Val) : Prop := ∀ p ∈ (texts vals).zip sizes, p.1.length < p.2

instance (sizes : List ℕ) (vals : List Val) : Decidable (Inside sizes vals) :=
  inferInstanceAs (Decidable (∀ p ∈ (texts vals).zip sizes, p.1.length < p.2))

namespace Reading

def vals (rd : Reading) (line : Bytes) : List Val := sscanf rd.format (line.drop rd.skip)

/-- The line is long enough, and so is the array of every text that is read. -/
def Fits (rd : Reading) (line : Bytes) : Prop := rd.skip ≤ line.length ∧ Inside rd.sizes (rd.vals line)

instance (rd : Reading) (line : Bytes) : Decidable (rd.Fits line) :=
  inferInstanceAs (Decidable (_ ∧ Inside rd.sizes (rd.vals line)))

def complete (rd : Reading) (line : Bytes) : Bool := (rd.vals line).length = (kinds rd.format).length

end Reading

section Values

variable {sizes : List ℕ} {vals : List Val} {α : Type} {P : Prop} {Q : α → Prop}

lemma num_cases (h : vals.map Val.isText <+: [false]) : vals = [] ∨ ∃ n, vals = [.num n] := by
  refine (kinds_num h).imp_right ?_
  rintro ⟨n, vals', rfl, h'⟩
  obtain rfl := kinds_nil h'
  exact ⟨n, rfl⟩

lemma text_cases (h : vals.map Val.isText <+: [true]) : vals = [] ∨ ∃ s, vals = [.text s] := by
  refine (kinds_text h).imp_right ?_
  rintro ⟨s, vals', rfl, h'⟩
  obtain rfl := kinds_nil h'
  exact ⟨s, rfl⟩

lemma num_text_num_cases (h : vals.map Val.isText <+: [false, true, false]) :
    vals = [] ∨ (∃ n, vals = [.num n]) ∨ (∃ n s, vals = [.num n, .text s])
      ∨ ∃ n s m, vals = [.num n, .text s, .num m] := by
  refine (kinds_num h).imp_right ?_
  rintro ⟨n, vals₁, rfl, h₁⟩
  rcases kinds_text h₁ with rfl | ⟨s, vals₂, rfl, h₂⟩
  · exact .inl ⟨n, rfl⟩
  rcases num_cases h₂ with rfl | ⟨m, rfl⟩
  · exact .inr (.inl ⟨n, s, rfl⟩)
  · exact .inr (.inr ⟨n, s, m, rfl⟩)

lemma text_num_text_cases (h : vals.map Val.isText <+: [true, false, true]) :
    vals = [] ∨ (∃ s, vals = [.text s]) ∨ (∃ s n, vals = [.text s, .num n])
      ∨ ∃ s n t, vals = [.text s, .num n, .text t] := by
  refine (kinds_text h).imp_right ?_
  rintro ⟨s, vals₁, rfl, h₁⟩
  rcases kinds_num h₁ with rfl | ⟨n, vals₂, rfl, h₂⟩
  · exact .inl ⟨s, rfl⟩
  rcases text_cases h₂ with rfl | ⟨t, rfl⟩
  · exact .inr (.inl ⟨s, n, rfl⟩)
  · exact .inr (.inr ⟨s, n, t, rfl⟩)

lemma inside_text (sz : ℕ) (s : Bytes) :
    Inside (sz :: sizes) (.text s :: vals) ↔ s.length < sz ∧ Inside sizes vals := List.forall_mem_cons

lemma exact_store_bind {sz : ℕ} {s : Bytes} {f : Bytes → Except LibRtsp.Fault α} (h : Exact P Q (f s)) :
    Exact (s.length < sz ∧ P) Q (store sz s >>= f) := by
  rw [store]
  split_ifs with hsz
  · exact h.conseq (and_iff_right hsz).symm fun _ => id
  · exact fun hp => hsz hp.1

lemma exact_store {sz : ℕ} {s : Bytes} {f : Bytes → Except LibRtsp.Fault α}
    (h : Exact (Inside sizes vals) Q (f s)) :
    Exact (Inside (sz :: sizes) (.text s :: vals)) Q (store sz s >>= f) :=
  (exact_store_bind h).conseq (inside_text sz s).symm fun _ => id

lemma exact_skip {n : ℕ} {line : Bytes} {f : Bytes → Except LibRtsp.Fault α} (h : Exact P Q (f (line.drop n))) :
    Exact (n ≤ line.length ∧ P) Q (skip n line >>= f) := by
  rw [skip]
  split_ifs with hn
  · exact h.conseq (and_iff_right hn).symm fun _ => id
  · exact fun hp => hn hp.1

end Values

section Sdp

def rtpmapReading : Reading := ⟨0, rtpmapFormat, [32]⟩

def controlReading : Reading := ⟨0, lits (bytes "a=control:") ++ [.word], [256]⟩

def mediaReading : Reading := ⟨0, mediaFormat, [16]⟩

def attrReading (line : Bytes) : Option Reading :=
  if hasPrefix (bytes "a=rtpmap") line then some rtpmapReading
  else if hasPrefix (bytes "a=control") line then some controlReading
  else none

inductive AttrKind
  | within
  | after
  | bad
deriving DecidableEq

def AttrLine.kind : AttrLine → AttrKind
  | .attr _ => .within
  | .bandwidth => .within
  | .other => .after
  | .bad => .bad

def attrKind (line : Bytes) : AttrKind :=
  match attrReading line with
  | some rd => if rd.complete line then .within else .bad
  | none => if hasPrefix (bytes "b=AS") line then .within else .after

lemma exact_rtpmapAttr (line : Bytes) : Exact (rtpmapReading.Fits line)
    (fun a => a.kind = if rtpmapReading.complete line then .within else .bad) (rtpmapAttr line) := by
  have hkinds := sscanf_kinds rtpmapFormat line
  have hfits : rtpmapReading.Fits line ↔ Inside [32] (sscanf rtpmapFormat line) :=
    and_iff_right (Nat.zero_le _)
  have hcomplete : rtpmapReading.complete line = decide ((sscanf rtpmapFormat line).length = 3) := rfl
  rw [rtpmapAttr, hfits, hcomplete]
  generalize sscanf rtpmapFormat line = vals at hkinds
  rcases num_text_num_cases hkinds with rfl | ⟨pt, rfl⟩ | ⟨pt, encName, rfl⟩ | ⟨pt, encName, clkRate, rfl⟩
  · exact ⟨nofun, rfl⟩
  · exact ⟨nofun, rfl⟩
  · exact exact_store ⟨nofun, rfl⟩
  · exact exact_store ⟨nofun, rfl⟩

lemma exact_controlAttr (line : Bytes) : Exact (controlReading.Fits line)
    (fun a => a.kind = if controlReading.complete line then .within else .bad) (controlAttr line) := by
  have hkinds := sscanf_kinds (lits (bytes "a=control:") ++ [.word]) line
  have hfits : controlReading.Fits line ↔ Inside [256] (sscanf (lits (bytes "a=control:") ++ [.word]) line) :=
    and_iff_right (Nat.zero_le _)
  have hcomplete : controlReading.complete line
    = decide ((sscanf (lits (bytes "a=control:") ++ [.word]) line).length = 1) := rfl
  rw [controlAttr, hfits, hcomplete]
  generalize sscanf (lits (bytes "a=control:") ++ [.word]) line = vals at hkinds
  rcases text_cases hkinds with rfl | ⟨track, rfl⟩
  · exact ⟨nofun, rfl⟩
  · exact exact_store ⟨nofun, rfl⟩

/-- The attributes behind `line` stay inside their arrays, and the last of them is followed by a line. -/
def AttrsFit (line : Bytes) : Prop :=
  match _h : lineEnd line with
  | none => False
  | some (_, next) => (∀ rd ∈ attrReading next, rd.Fits next) ∧ (attrKind next = .within → AttrsFit next)
termination_by line.length
decreasing_by exact length_lineEnd ‹_›

def attrsEnd (line : Bytes) : Option Bytes :=
  match _h : lineEnd line with
  | none => none
  | some (c, next) =>
    match attrKind next with
    | .within => attrsEnd next
    | .after => some (c :: next)
    | .bad => none
termination_by line.length
decreasing_by exact length_lineEnd ‹_›

lemma exact_attrLine (line : Bytes) : Exact (∀ rd ∈ attrReading line, rd.Fits line)
    (fun a => a.kind = attrKind line) (attrLine line) := by
  rw [attrLine, attrKind, attrReading]
  by_cases hrtpmap : hasPrefix (bytes "a=rtpmap") line
  · rw [if_pos hrtpmap, if_pos hrtpmap]
    simp only [Option.mem_some_iff, forall_eq']
    exact exact_rtpmapAttr line
  by_cases hcontrol : hasPrefix (bytes "a=control") line
  · rw [if_neg hrtpmap, if_neg hrtpmap, if_pos hcontrol, if_pos hcontrol]
    simp only [Option.mem_some_iff, forall_eq']
    exact exact_controlAttr line
  rw [if_neg hrtpmap, if_neg hrtpmap, if_neg hcontrol, if_neg hcontrol]
  refine ⟨nofun, ?_⟩
  split_ifs <;> rfl

lemma exact_sdpAttrs (sdp : SdpInfo) (media : MediaType) (line : Bytes) :
    Exact (AttrsFit line) (fun r => r.map Prod.snd = attrsEnd line) (sdpAttrs sdp media line) := by
  induction hn : line.length using Nat.strong_induction_on generalizing line sdp with
  | _ n ih =>
    rw [sdpAttrs, AttrsFit, attrsEnd]
    cases hend : lineEnd line with
    | none => exact id
    | some p =>
      obtain ⟨c, next⟩ := p
      refine (exact_attrLine next).bind fun a ha => ?_
      have ih' := fun sdp => ih _ (hn ▸ length_lineEnd hend) sdp next rfl
      dsimp only
      rw [← ha]
      cases a with
      | attr a => exact (ih' _).conseq ⟨fun h _ => h, fun h => h rfl⟩ fun _ => id
      | bandwidth => exact (ih' _).conseq ⟨fun h _ => h, fun h => h rfl⟩ fun _ => id
      | other => exact ⟨by rintro ⟨⟩, rfl⟩
      | bad => exact ⟨by rintro ⟨⟩, rfl⟩

def isMedia (line : Bytes) : Bool := hasPrefix (bytes "m=video") line || hasPrefix (bytes "m=audio") line

def SdpLineFits (line : Bytes) : Prop :=
  isMedia line → mediaReading.Fits line ∧ (mediaReading.complete line → AttrsFit line)

def sdpLineEnd (line : Bytes) : Option Bytes :=
  if isMedia line then if mediaReading.complete line then attrsEnd line else none
  else match sscanf (lits (bytes "v=") ++ [.int]) line with
    | [.num v] => if int v ≠ 0 then none else some line
    | _ => some line

lemma exact_mediaLine (sdp : SdpInfo) (media : MediaType) (line : Bytes) :
    Exact (mediaReading.Fits line ∧ (mediaReading.complete line → AttrsFit line))
      (fun r => r.map Prod.snd = if mediaReading.complete line then attrsEnd line else none)
      (mediaLine sdp media line) := by
  have hkinds := sscanf_kinds mediaFormat line
  have hfits : mediaReading.Fits line ↔ Inside [16] (sscanf mediaFormat line) :=
    and_iff_right (Nat.zero_le _)
  have hcomplete : mediaReading.complete line = decide ((sscanf mediaFormat line).length = 3) := rfl
  rw [mediaLine, hfits, hcomplete]
  generalize sscanf mediaFormat line = vals at hkinds
  rcases num_text_num_cases hkinds with rfl | ⟨port, rfl⟩ | ⟨port, proto, rfl⟩ | ⟨port, proto, pt, rfl⟩
  · exact ⟨⟨by rintro _ ⟨⟩, by rintro ⟨⟩⟩, rfl⟩
  · exact ⟨⟨by rintro _ ⟨⟩, by rintro ⟨⟩⟩, rfl⟩
  · have hnone : Exact (Inside [16] [.num port, .text proto])
        (fun r : Option (SdpInfo × Bytes) => r.map Prod.snd = none) (store 16 proto >>= fun _ => .ok none) :=
      exact_store ⟨by rintro _ ⟨⟩, rfl⟩
    exact hnone.conseq ⟨fun h => ⟨h, by rintro ⟨⟩⟩, And.left⟩ fun _ => id
  · refine Exact.conseq (P := proto.length < 16 ∧ AttrsFit line) (exact_store_bind ?_) ?_ fun _ => id
    · exact exact_sdpAttrs _ media line
    exact ⟨fun h => ⟨(inside_text 16 proto).mpr ⟨h.1, by rintro _ ⟨⟩⟩, fun _ => h.2⟩,
      fun h => ⟨((inside_text 16 proto).mp h.1).1, h.2 rfl⟩⟩

lemma exact_sdpLine (sdp : SdpInfo) (line : Bytes) :
    Exact (SdpLineFits line) (fun r => r.map Prod.snd = sdpLineEnd line) (sdpLine sdp line) := by
  rw [sdpLine, SdpLineFits, sdpLineEnd, isMedia]
  by_cases hvideo : hasPrefix (bytes "m=video") line
  · rw [if_pos hvideo, hvideo, Bool.true_or, if_pos rfl, forall_prop_of_true rfl]
    exact exact_mediaLine sdp .video line
  by_cases haudio : hasPrefix (bytes "m=audio") line
  · rw [if_neg hvideo, if_pos haudio, haudio, Bool.or_true, if_pos rfl, forall_prop_of_true rfl]
    exact exact_mediaLine sdp .audio line
  rw [if_neg hvideo, if_neg haudio, Bool.eq_false_iff.mpr hvideo, Bool.eq_false_iff.mpr haudio, Bool.or_self,
    if_neg Bool.false_ne_true]
  have hkinds := sscanf_kinds (lits (bytes "v=") ++ [.int]) line
  generalize sscanf (lits (bytes "v=") ++ [.int]) line = vals at hkinds
  rcases num_cases hkinds with rfl | ⟨v, rfl⟩
  · exact ⟨by rintro ⟨⟩, rfl⟩
  · refine ⟨by rintro ⟨⟩, ?_⟩
    dsimp only
    split_ifs <;> rfl

lemma length_attrsEnd {line last : Bytes} (h : attrsEnd line = some last) : last.length ≤ line.length := by
  induction hn : line.length using Nat.strong_induction_on generalizing line with
  | _ n ih =>
    subst hn
    rw [attrsEnd] at h
    split at h
    · exact nomatch h
    · next c next hend =>
      have hlt := length_lineEnd hend
      cases hkind : attrKind next with
      | within =>
        rw [hkind] at h
        exact (ih _ hlt h rfl).trans hlt.le
      | after =>
        rw [hkind] at h
        obtain rfl := Option.some.inj h
        exact hlt
      | bad => exact nomatch hkind ▸ h

lemma length_sdpLineEnd {line last : Bytes} (h : sdpLineEnd line = some last) : last.length ≤ line.length := by
  rw [sdpLineEnd] at h
  split_ifs at h
  · exact length_attrsEnd h
  · split at h
    · split_ifs at h
      obtain rfl := Option.some.inj h
      exact le_rfl
    · obtain rfl := Option.some.inj h
      exact le_rfl

-- The lines of a description that the loop gets to, each with all that follows it.
def sdpLines (line : Bytes) : List Bytes :=
  line :: match _h : sdpLineEnd line with
    | none => []
    | some last => match _h' : getNextLine last with
      | none => []
      | some next => sdpLines next
termination_by line.length
decreasing_by exact (length_getNextLine _h').trans_le (length_sdpLineEnd _h)

def SdpFits (line : Bytes) : Prop := ∀ l ∈ sdpLines line, SdpLineFits l

def SdpGood (line : Bytes) : Prop := ∀ l ∈ sdpLines line, sdpLineEnd l ≠ none

lemma sdpLines_eq (line : Bytes) : sdpLines line = line :: match (sdpLineEnd line).bind getNextLine with
    | none => []
    | some next => sdpLines next := by
  rw [sdpLines]
  split
  · next hend => rw [hend]; rfl
  · next last hend =>
    rw [hend, Option.bind_some]
    split <;> next hnext => rw [hnext]

lemma exact_parseSdpInfo (sdp : SdpInfo) (line : Bytes) :
    Exact (SdpFits line) (fun r => r.isSome ↔ SdpGood line) (parseSdpInfo sdp line) := by
  induction hn : line.length using Nat.strong_induction_on generalizing line sdp with
  | _ n ih =>
    have hline := exact_sdpLine sdp line
    rw [parseSdpInfo, SdpFits, SdpGood]
    cases hrun : sdpLine sdp line with
    | error f =>
      rw [hrun] at hline
      rw [sdpLines_eq]
      exact fun h => hline (h line List.mem_cons_self)
    | ok r =>
      rw [hrun] at hline
      obtain ⟨hfits, hend⟩ := hline
      cases r with
      | none =>
        replace hend : sdpLineEnd line = none := hend.symm
        rw [sdpLines_eq, hend]
        simp only [Option.bind_none, List.forall_mem_singleton]
        exact ⟨hfits, iff_of_false nofun (not_not_intro hend)⟩
      | some r =>
        obtain ⟨sdp', last⟩ := r
        replace hend : sdpLineEnd line = some last := hend.symm
        dsimp only
        cases hnext : getNextLine last with
        | none =>
          rw [sdpLines_eq, hend]
          simp only [Option.bind_some, hnext, List.forall_mem_singleton]
          exact ⟨hfits, iff_of_true rfl (hend ▸ nofun)⟩
        | some next =>
          rw [sdpLines_eq, hend]
          simp only [Option.bind_some, hnext, List.forall_mem_cons]
          have hlt : next.length < line.length := (length_getNextLine hnext).trans_le (length_sdpLineEnd hend)
          refine (ih _ (hn ▸ hlt) sdp' next rfl).conseq (and_iff_right hfits).symm fun a ha => ?_
          exact ha.trans (and_iff_right (hend ▸ nofun)).symm

end Sdp

section Content

/-- How the search for the content of a response ends: at the end of the lines, at a length that is not in
order, or at a description. -/
inductive ContentEnd
  | missing
  | refused
  | sdp (line : Bytes)

def behind (line : Bytes) : Option Bytes :=
  (if (Bytes.find crlf line).isSome then (Bytes.find crlf line).map (· + 2)
    else (Bytes.find [10] line).map (· + 1)).map fun n => line.drop n

lemma length_behind {line rest : Bytes} (h : behind line = some rest) : rest.length ≤ line.length := by
  obtain ⟨n, -, rfl⟩ := Option.map_eq_some_iff.mp h
  exact (List.drop_suffix n line).length_le

def lengthOf (line : Bytes) : List Val := sscanf (lits (bytes "Content-Length:") ++ [.space, .int]) line

-- Where the content is looked for behind `line`; `isSdp`: the type of the content names a description.
def contentEnd (isSdp : Bool) (line : Bytes) : ContentEnd :=
  match _h : getNextLine line with
  | none => .missing
  | some next =>
    if hasPrefixCase (bytes "Content-Length") next then
      match lengthOf next with
      | [.num v] =>
        if crlf.length < uint v then
          match _h' : behind next with
          | none => .refused
          | some rest => if isSdp then .sdp rest else contentEnd isSdp rest
        else contentEnd isSdp next
      | _ => .refused
    else contentEnd isSdp next
termination_by line.length
decreasing_by
  · exact (length_behind ‹_›).trans_lt (length_getNextLine ‹_›)
  all_goals exact length_getNextLine ‹_›

def ContentEnd.Fits : ContentEnd → Prop
  | .missing => False
  | .refused => True
  | .sdp line => SdpFits line

def ContentEnd.Freed : ContentEnd → Prop
  | .missing => False
  | .refused => False
  | .sdp line => ¬ SdpGood line

lemma exact_content (r : RtspResp) (hsdp : r.sdpInfo = .null) (line : Bytes) :
    let e := contentEnd (Bytes.find (bytes "sdp") r.contentType).isSome line
    Exact e.Fits (fun p => p.1.cseq = r.cseq ∧ (p.1.sdpInfo = .freed ↔ e.Freed)) (r.content line) := by
  induction hn : line.length using Nat.strong_induction_on generalizing line r with
  | _ n ih =>
    rw [RtspResp.content, contentEnd]
    cases hnext : getNextLine line with
    | none => exact id
    | some next =>
      have hlt := length_getNextLine hnext
      have hnull : r.sdpInfo = .freed ↔ False := iff_of_false (hsdp ▸ nofun) id
      dsimp only
      by_cases hlength : hasPrefixCase (bytes "Content-Length") next
      · rw [if_pos hlength, if_pos hlength, lengthOf]
        have hkinds := sscanf_kinds (lits (bytes "Content-Length:") ++ [.space, .int]) next
        generalize sscanf (lits (bytes "Content-Length:") ++ [.space, .int]) next = vals at hkinds
        rcases num_cases hkinds with rfl | ⟨v, rfl⟩
        · exact ⟨trivial, rfl, hnull⟩
        dsimp only
        by_cases hbig : crlf.length < uint v
        · rw [if_pos hbig, if_pos hbig]
          cases hbehind : behind next with
          | none =>
            rw [Option.map_eq_none_iff.mp hbehind]
            exact ⟨trivial, rfl, hnull⟩
          | some rest =>
            obtain ⟨n, hn', rfl⟩ := Option.map_eq_some_iff.mp hbehind
            rw [hn']
            dsimp only
            by_cases hisSdp : (Bytes.find (bytes "sdp") r.contentType).isSome
            · rw [if_pos hisSdp, if_pos hisSdp]
              refine Exact.conseq ((exact_parseSdpInfo allocSdpInfo _).bind fun sdp hgood => ?_)
                (iff_of_eq (and_true _)) fun _ => id
              cases sdp with
              | none => exact ⟨trivial, rfl, iff_of_true rfl (fun hg => nomatch hgood.mpr hg)⟩
              | some sdp => exact ⟨trivial, rfl, iff_of_false nofun (not_not_intro (hgood.mp rfl))⟩
            · rw [if_neg hisSdp, if_neg hisSdp]
              exact ih _ (hn ▸ (length_behind hbehind).trans_lt hlt) { r with contentLength := uint v } hsdp _ rfl
        · rw [if_neg hbig, if_neg hbig]
          exact ih _ (hn ▸ hlt) { r with contentLength := uint v } hsdp _ rfl
      · rw [if_neg hlength, if_neg hlength]
        exact ih _ (hn ▸ hlt) r hsdp _ rfl

end Content

section Transport

def withMode (mode : Bool) : RtspResp := { RtspResp.fresh with transport.intlvdMode := mode }

def modeField (mode : Bool) (ptr : Bytes) : Bool × Bool :=
  ((withMode mode).transportField ptr).map (fun r => r.transport.intlvdMode) id

def fieldPtrs (mode : Bool) (ptr : Bytes) : List (Bool × Bytes) :=
  if ptr = [] then []
  else (mode, ptr) :: if (modeField mode ptr).2 then
      match _h : nextField ptr with
      | some (some next) => fieldPtrs (modeField mode ptr).1 next
      | _ => []
    else []
termination_by ptr.length
decreasing_by exact length_nextField ‹_›

/-- Every field that is accepted is followed by a separator or a line end. -/
def FieldsFit (mode : Bool) (ptr : Bytes) : Prop :=
  ∀ p ∈ fieldPtrs mode ptr, (modeField p.1 p.2).2 → nextField p.2 ≠ none

def fieldsEnd (mode : Bool) (ptr : Bytes) : Bool × Bool :=
  ((fieldPtrs mode ptr).getLast?.map fun p => modeField p.1 p.2).getD (mode, true)

structure After (r : RtspResp) (e : Bool × Bool) (cseq : ℕ) (p : RtspResp × Bool) : Prop where
  mode : (p.1.transport.intlvdMode, p.2) = e
  cseq : p.1.cseq = cseq
  sdpInfo : p.1.sdpInfo = r.sdpInfo

lemma after_transportField (r : RtspResp) (ptr : Bytes) :
    After r (modeField r.transport.intlvdMode ptr) r.cseq (r.transportField ptr) := by
  have hmode : (withMode r.transport.intlvdMode).transport.intlvdMode = r.transport.intlvdMode := rfl
  rw [modeField, RtspResp.transportField, RtspResp.transportField]
  split_ifs
  · exact ⟨rfl, rfl, rfl⟩
  · exact ⟨rfl, rfl, rfl⟩
  · exact ⟨rfl, rfl, rfl⟩
  · exact ⟨rfl, rfl, rfl⟩
  · rw [RtspResp.clientPort, RtspResp.clientPort, hmode]
    split_ifs
    · exact ⟨rfl, rfl, rfl⟩
    · split <;> exact ⟨rfl, rfl, rfl⟩
  · rw [RtspResp.serverPort, RtspResp.serverPort, hmode]
    split_ifs
    · exact ⟨rfl, rfl, rfl⟩
    · split <;> exact ⟨rfl, rfl, rfl⟩
  · rw [RtspResp.interleaved, RtspResp.interleaved, hmode]
    split_ifs
    · split <;> exact ⟨rfl, rfl, rfl⟩
    · exact ⟨rfl, rfl, rfl⟩
  · exact ⟨rfl, rfl, rfl⟩

lemma fieldPtrs_step (mode : Bool) {ptr : Bytes} (hne : ptr ≠ []) :
    fieldPtrs mode ptr = (mode, ptr) :: if (modeField mode ptr).2 then
        match nextField ptr with
        | some (some next) => fieldPtrs (modeField mode ptr).1 next
        | _ => []
      else [] := by
  rw [fieldPtrs, if_neg hne]
  split_ifs
  · cases nextField ptr with
    | none => rfl
    | some next => cases next <;> rfl
  · rfl

lemma fieldsEnd_cons (p : Bool × Bytes) (ps : List (Bool × Bytes)) (e : Bool × Bool) :
    ((p :: ps).getLast?.map fun p => modeField p.1 p.2).getD e
      = (ps.getLast?.map fun p => modeField p.1 p.2).getD (modeField p.1 p.2) := by
  rw [List.getLast?_cons]
  cases ps.getLast? <;> rfl

lemma exact_transportFields (r : RtspResp) (ptr : Bytes) :
    Exact (FieldsFit r.transport.intlvdMode ptr) (After r (fieldsEnd r.transport.intlvdMode ptr) r.cseq)
      (r.transportFields ptr) := by
  induction hn : ptr.length using Nat.strong_induction_on generalizing ptr r with
  | _ n ih =>
    rw [RtspResp.transportFields, FieldsFit, fieldsEnd]
    by_cases hnil : ptr = []
    · rw [fields, fieldPtrs, if_pos hnil, if_pos hnil]
      exact ⟨by rintro _ ⟨⟩, rfl, rfl, rfl⟩
    have hfield := after_transportField r ptr
    rw [fields_step r hnil, fieldPtrs_step _ hnil, List.forall_mem_cons, ← hfield.mode]
    by_cases hgo : (r.transportField ptr).2
    · rw [if_pos hgo, if_pos hgo]
      cases hnext : nextField ptr with
      | none => exact fun h => h.1 hgo rfl
      | some next =>
        cases next with
        | none => exact ⟨⟨fun _ => by rintro ⟨⟩, by rintro _ ⟨⟩⟩, hfield⟩
        | some next =>
          refine (ih _ (hn ▸ length_nextField hnext) (r.transportField ptr).1 next rfl).conseq
            (and_iff_right fun _ => by rintro ⟨⟩).symm fun p hp => ⟨hp.mode.trans ?_, hp.cseq.trans hfield.cseq,
              hp.sdpInfo.trans hfield.sdpInfo⟩
          rw [fieldsEnd_cons, ← hfield.mode, hgo, fieldsEnd]
    · rw [if_neg hgo, if_neg hgo]
      exact ⟨⟨fun h => absurd h hgo, by rintro _ ⟨⟩⟩, hfield⟩

end Transport

section Headers

def cseqReading : Reading := ⟨(bytes "CSeq: ").length, [.int], []⟩

def dateReading : Reading := ⟨(bytes "Date: ").length, [.noneOf crlf], [64]⟩

def sessionReading : Reading := ⟨(bytes "Session: ").length, [.int], []⟩

def publicReading : Reading := ⟨(bytes "Public: ").length, [.noneOf crlf], [128]⟩

def contentTypeReading : Reading := ⟨(bytes "Content-Type: ").length, [.noneOf crlf], [64]⟩

def hdrReading (line : Bytes) : Option Reading :=
  if hasPrefixCase (bytes "CSeq") line then some cseqReading
  else if hasPrefixCase (bytes "Date") line then some dateReading
  else if hasPrefixCase (bytes "Session") line then some sessionReading
  else if hasPrefixCase (bytes "Public") line then some publicReading
  else none

def transportPtr (line : Bytes) : Bytes := line.drop (bytes "Transport: ").length

def HdrFits (mode : Bool) (line : Bytes) : Prop :=
  match hdrReading line with
  | some rd => rd.Fits line
  | none => hasPrefixCase (bytes "Transport") line → hasPrefix (bytes "Transport: ") line →
    FieldsFit mode (transportPtr line)

def hdrEnd (mode : Bool) (line : Bytes) : Bool × Bool :=
  match hdrReading line with
  | some rd => (mode, rd.complete line)
  | none =>
    if hasPrefixCase (bytes "Transport") line then
      if hasPrefix (bytes "Transport: ") line then fieldsEnd mode (transportPtr line) else (mode, false)
    else (mode, true)

def cseqNum (line : Bytes) : Option ℕ :=
  if hasPrefixCase (bytes "CSeq") line then
    match cseqReading.vals line with
    | [.num v] => some (uint v)
    | _ => none
  else none

def contentOf (line : Bytes) : Option ContentEnd :=
  match contentTypeReading.vals line with
  | [.text contentType] => some (contentEnd (Bytes.find (bytes "sdp") contentType).isSome line)
  | _ => none

def ContentFits (line : Bytes) : Prop := contentTypeReading.Fits line ∧ ∀ e ∈ contentOf line, e.Fits

def ContentFreed (line : Bytes) : Prop := ∃ e ∈ contentOf line, e.Freed

variable (r : RtspResp) (line : Bytes)

lemma exact_numHdr (n : ℕ) {num : ℤ → RtspResp} {cseq : ℤ → ℕ}
    (hnum : ∀ v, After r (r.transport.intlvdMode, true) (cseq v) (num v, true)) :
    Exact (Reading.Fits ⟨n, [.int], []⟩ line)
      (After r (r.transport.intlvdMode, Reading.complete ⟨n, [.int], []⟩ line)
        (match sscanf [.int] (line.drop n) with
          | [.num v] => cseq v
          | _ => r.cseq))
      (do match sscanf [.int] (← skip n line) with
        | [.num v] => .ok (num v, true)
        | _ => .ok (r, false)) := by
  have hkinds := sscanf_kinds [.int] (line.drop n)
  refine exact_skip ?_
  rw [Reading.complete, Reading.vals]
  dsimp only
  generalize sscanf [.int] (line.drop n) = vals at hkinds
  rcases num_cases hkinds with rfl | ⟨v, rfl⟩
  · exact ⟨nofun, rfl, rfl, rfl⟩
  · exact ⟨nofun, hnum v⟩

lemma exact_textHdr (n sz : ℕ) {text : Bytes → RtspResp}
    (htext : ∀ s, After r (r.transport.intlvdMode, true) r.cseq (text s, true)) :
    Exact (Reading.Fits ⟨n, [.noneOf crlf], [sz]⟩ line)
      (After r (r.transport.intlvdMode, Reading.complete ⟨n, [.noneOf crlf], [sz]⟩ line) r.cseq)
      (do match sscanf [.noneOf crlf] (← skip n line) with
        | [.text s] =>
          let s ← store sz s
          .ok (text s, true)
        | _ => .ok (r, false)) := by
  have hkinds := sscanf_kinds [.noneOf crlf] (line.drop n)
  refine exact_skip ?_
  rw [Reading.complete, Reading.vals]
  dsimp only
  generalize sscanf [.noneOf crlf] (line.drop n) = vals at hkinds
  rcases text_cases hkinds with rfl | ⟨s, rfl⟩
  · exact ⟨nofun, rfl, rfl, rfl⟩
  · exact exact_store ⟨nofun, htext s⟩

lemma exact_cseqHdr : Exact (cseqReading.Fits line)
    (After r (r.transport.intlvdMode, cseqReading.complete line)
      (match cseqReading.vals line with
        | [.num v] => uint v
        | _ => r.cseq)) (r.cseqHdr line) :=
  exact_numHdr r line _ fun _ => ⟨rfl, rfl, rfl⟩

lemma exact_dateHdr : Exact (dateReading.Fits line)
    (After r (r.transport.intlvdMode, dateReading.complete line) r.cseq) (r.dateHdr line) :=
  exact_textHdr r line _ 64 fun _ => ⟨rfl, rfl, rfl⟩

lemma exact_sessionHdr : Exact (sessionReading.Fits line)
    (After r (r.transport.intlvdMode, sessionReading.complete line) r.cseq) (r.sessionHdr line) := by
  have hnum (v : ℤ) : After r (r.transport.intlvdMode, true) r.cseq ({ r with sessId := ulong v }, true) :=
    ⟨rfl, rfl, rfl⟩
  refine (exact_numHdr r line _ hnum).conseq .rfl fun p hp => ⟨hp.mode, hp.cseq.trans ?_, hp.sdpInfo⟩
  split <;> rfl

lemma exact_publicLine : Exact (publicReading.Fits line)
    (After r (r.transport.intlvdMode, publicReading.complete line) r.cseq) (r.publicLine line) :=
  exact_textHdr r line _ 128 fun _ => ⟨rfl, rfl, rfl⟩

lemma exact_parseHdrTransport : Exact (hasPrefix (bytes "Transport: ") line →
      FieldsFit r.transport.intlvdMode (transportPtr line))
    (After r (if hasPrefix (bytes "Transport: ") line then fieldsEnd r.transport.intlvdMode (transportPtr line)
      else (r.transport.intlvdMode, false)) r.cseq) (r.parseHdrTransport line) := by
  rw [RtspResp.parseHdrTransport]
  split_ifs with hprefix
  · exact (exact_transportFields r _).conseq ⟨fun h _ => h, fun h => h hprefix⟩ fun _ => id
  · exact ⟨fun h => absurd h hprefix, rfl, rfl, rfl⟩

lemma exact_respHdr : Exact (HdrFits r.transport.intlvdMode line)
    (After r (hdrEnd r.transport.intlvdMode line) ((cseqNum line).getD r.cseq)) (r.respHdr line) := by
  rw [HdrFits, hdrEnd, hdrReading, cseqNum, RtspResp.respHdr]
  by_cases hcseq : hasPrefixCase (bytes "CSeq") line
  · simp only [if_pos hcseq]
    refine (exact_cseqHdr r line).conseq .rfl fun p hp => ⟨hp.mode, hp.cseq.trans ?_, hp.sdpInfo⟩
    have hkinds : (cseqReading.vals line).map Val.isText <+: [false] := sscanf_kinds _ _
    generalize cseqReading.vals line = vals at hkinds
    rcases num_cases hkinds with rfl | ⟨v, rfl⟩ <;> rfl
  simp only [if_neg hcseq, Option.getD_none]
  by_cases hdate : hasPrefixCase (bytes "Date") line
  · simp only [if_pos hdate]
    exact exact_dateHdr r line
  simp only [if_neg hdate]
  by_cases hsession : hasPrefixCase (bytes "Session") line
  · simp only [if_pos hsession]
    exact exact_sessionHdr r line
  simp only [if_neg hsession]
  by_cases hpublic : hasPrefixCase (bytes "Public") line
  · simp only [if_pos hpublic]
    exact exact_publicLine r line
  simp only [if_neg hpublic]
  by_cases htransport : hasPrefixCase (bytes "Transport") line
  · simp only [if_pos htransport]
    exact (exact_parseHdrTransport r line).conseq ⟨fun h _ => h, fun h => h htransport⟩ fun _ => id
  · simp only [if_neg htransport]
    exact ⟨fun h => absurd h htransport, rfl, rfl, rfl⟩

lemma exact_parseHdrContent (hsdp : r.sdpInfo = .null) : Exact (ContentFits line)
    (fun p => p.1.cseq = r.cseq ∧ (p.1.sdpInfo = .freed ↔ ContentFreed line)) (r.parseHdrContent line) := by
  have hkinds := sscanf_kinds [.noneOf crlf] (line.drop (bytes "Content-Type: ").length)
  have hskip : ContentFits line ↔ (bytes "Content-Type: ").length ≤ line.length
      ∧ Inside [64] (contentTypeReading.vals line) ∧ ∀ e ∈ contentOf line, e.Fits := and_assoc
  rw [hskip, ContentFreed, contentOf, Reading.vals, contentTypeReading]
  refine exact_skip ?_
  dsimp only
  generalize sscanf [.noneOf crlf] (line.drop (bytes "Content-Type: ").length) = vals at hkinds
  rcases text_cases hkinds with rfl | ⟨contentType, rfl⟩
  · exact ⟨⟨nofun, nofun⟩, rfl, iff_of_false (hsdp ▸ nofun) nofun⟩
  · have hcontent := exact_content { r with contentType } hsdp line
    simp only [Option.mem_some_iff, forall_eq', exists_eq_left']
    have hinside : Inside [64] [.text contentType] ↔ contentType.length < 64 :=
      (inside_text 64 contentType).trans (and_iff_left nofun)
    rw [hinside]
    exact exact_store_bind (f := fun contentType => RtspResp.content { r with contentType } line) hcontent

-- The headers that the parser gets to, each with the mode before it.
def reachedHdrs (mode : Bool) (line : Bytes) : List (Bool × Bytes) :=
  (mode, line) :: if RtspResp.isContentType line then []
    else if (hdrEnd mode line).2 then
      match _h : getNextLine line with
      | none => []
      | some next => reachedHdrs (hdrEnd mode line).1 next
    else []
termination_by line.length
decreasing_by exact length_getNextLine ‹_›

def LineFits (p : Bool × Bytes) : Prop := if RtspResp.isContentType p.2 then ContentFits p.2 else HdrFits p.1 p.2

lemma reachedHdrs_eq (mode : Bool) : reachedHdrs mode line = (mode, line) :: if RtspResp.isContentType line then []
    else if (hdrEnd mode line).2 then
      match getNextLine line with
      | none => []
      | some next => reachedHdrs (hdrEnd mode line).1 next
    else [] := by
  rw [reachedHdrs]
  split_ifs
  · rfl
  · split <;> next hnext => rw [hnext]
  · rfl

lemma cseqNum_contentType (h : RtspResp.isContentType line) : cseqNum line = none := by
  rw [RtspResp.isContentType, hasPrefixCase, List.isPrefixOf_iff_prefix] at h
  refine if_neg ?_
  rw [hasPrefixCase, List.isPrefixOf_iff_prefix]
  exact fun hcseq => (List.prefix_or_prefix_of_prefix h hcseq).elim (by decide +kernel) (by decide +kernel)

lemma respHdrs_eq (found : Bool) : r.respHdrs found line = if RtspResp.isContentType line then
      r.parseHdrContent line >>= fun p => .ok (p.1, p.2 && found)
    else r.respHdr line >>= fun p => if p.2 then
        match getNextLine line with
        | none => .ok (p.1, found || hasPrefixCase (bytes "CSeq") line)
        | some next => p.1.respHdrs (found || hasPrefixCase (bytes "CSeq") line) next
      else .ok p := by
  rw [RtspResp.respHdrs]
  split_ifs
  · rfl
  · refine congrArg (r.respHdr line >>= ·) (funext fun p => ?_)
    dsimp only
    split_ifs
    · split <;> next hnext => rw [hnext]
    · rfl

def lastCseq (ls : List (Bool × Bytes)) (cseq : ℕ) : ℕ := (ls.filterMap fun p => cseqNum p.2).getLastD cseq

def FreedIn (ls : List (Bool × Bytes)) : Prop := ∃ p ∈ ls, RtspResp.isContentType p.2 ∧ ContentFreed p.2

lemma lastCseq_cons (p : Bool × Bytes) (ls : List (Bool × Bytes)) (cseq : ℕ) :
    lastCseq (p :: ls) cseq = lastCseq ls ((cseqNum p.2).getD cseq) := by
  rw [lastCseq, lastCseq, List.filterMap_cons]
  cases cseqNum p.2 with
  | none => rfl
  | some v => exact List.getLastD_cons ..

lemma freedIn_cons (p : Bool × Bytes) (ls : List (Bool × Bytes)) :
    FreedIn (p :: ls) ↔ RtspResp.isContentType p.2 ∧ ContentFreed p.2 ∨ FreedIn ls := by
  simp only [FreedIn, List.mem_cons, exists_eq_or_imp]

lemma exact_respHdrs (hsdp : r.sdpInfo = .null) (found : Bool) :
    let ls := reachedHdrs r.transport.intlvdMode line
    Exact (∀ p ∈ ls, LineFits p)
      (fun p => p.1.cseq = lastCseq ls r.cseq ∧ (p.1.sdpInfo = .freed ↔ FreedIn ls)) (r.respHdrs found line) := by
  induction hn : line.length using Nat.strong_induction_on generalizing line r found with
  | _ n ih =>
    have hnone : ¬ FreedIn [] := nofun
    rw [respHdrs_eq, reachedHdrs_eq]
    dsimp only
    rw [List.forall_mem_cons, LineFits, lastCseq_cons, freedIn_cons]
    by_cases htype : RtspResp.isContentType line
    · rw [if_pos htype, if_pos htype, if_pos htype, cseqNum_contentType line htype]
      refine Exact.conseq ((exact_parseHdrContent r line hsdp).bind fun p hp => ?_) .rfl fun _ => id
      exact ⟨nofun, hp.1, hp.2.trans (by rw [and_iff_right htype, or_iff_left hnone])⟩
    · rw [if_neg htype, if_neg htype, if_neg htype, or_iff_right fun h => htype h.1]
      refine (exact_respHdr r line).bind fun p hp => ?_
      rw [← hp.mode, ← hp.cseq]
      dsimp only
      by_cases hgo : p.2
      · rw [if_pos hgo, if_pos hgo]
        cases hnext : getNextLine line with
        | none => exact ⟨nofun, rfl, iff_of_false (hp.sdpInfo.trans hsdp ▸ nofun) hnone⟩
        | some next => exact ih _ (hn ▸ length_getNextLine hnext) p.1 next (hp.sdpInfo.trans hsdp) _ rfl
      · rw [if_neg hgo, if_neg hgo]
        exact ⟨nofun, rfl, iff_of_false (hp.sdpInfo.trans hsdp ▸ nofun) hnone⟩

end Headers

section Responses

def statusReading : Reading := ⟨0, RtspResp.respLineFormat, [16, 64]⟩

def statusGood (text : Bytes) : Bool :=
  match statusReading.vals text with
  | [.text ver, .num code, .text _] => ver = rtspVersion ∧ int code = 200
  | _ => false

def respHdrs (text : Bytes) : List (Bool × Bytes) :=
  if statusGood text then
    match getNextLine text with
    | none => []
    | some line => reachedHdrs false line
  else []

def RespFits (text : Bytes) : Prop := statusReading.Fits text ∧ ∀ p ∈ respHdrs text, LineFits p

lemma exact_parseRespLine (r : RtspResp) (text : Bytes) : Exact (statusReading.Fits text)
    (After r (r.transport.intlvdMode, statusGood text) r.cseq) (r.parseRespLine text) := by
  have hkinds := sscanf_kinds RtspResp.respLineFormat text
  have hfits : statusReading.Fits text ↔ Inside [16, 64] (sscanf RtspResp.respLineFormat text) :=
    and_iff_right (Nat.zero_le _)
  have hvals : statusReading.vals text = sscanf RtspResp.respLineFormat text := rfl
  rw [RtspResp.parseRespLine, hfits, statusGood, hvals]
  generalize sscanf RtspResp.respLineFormat text = vals at hkinds
  rcases text_num_text_cases hkinds with rfl | ⟨ver, rfl⟩ | ⟨ver, code, rfl⟩ | ⟨ver, code, reason, rfl⟩
  · exact ⟨nofun, rfl, rfl, rfl⟩
  · exact exact_store ⟨nofun, rfl, rfl, rfl⟩
  · exact exact_store ⟨nofun, rfl, rfl, rfl⟩
  · refine exact_store ?_
    exact exact_store ⟨nofun, rfl, rfl, rfl⟩

lemma exact_parseRtspResp (text : Bytes) : Exact (RespFits text)
    (fun p => p.1.cseq = lastCseq (respHdrs text) 0 ∧ (p.1.sdpInfo = .freed ↔ FreedIn (respHdrs text)))
    (parseRtspResp text) := by
  have hnone : ¬ FreedIn [] := nofun
  refine (exact_parseRespLine .fresh text).bind fun p hp => ?_
  have hsdp : p.1.sdpInfo = .null := hp.sdpInfo
  obtain ⟨hmode, hgood⟩ := Prod.mk.inj hp.mode
  rw [respHdrs, ← hgood]
  by_cases hgo : p.2
  · rw [if_pos hgo, if_pos hgo]
    cases hnext : getNextLine text with
    | none => exact ⟨nofun, hp.cseq, iff_of_false (hsdp ▸ nofun) hnone⟩
    | some line =>
      have hhdrs := exact_respHdrs p.1 line hsdp false
      rw [hmode, hp.cseq] at hhdrs
      exact hhdrs
  · rw [if_neg hgo, if_neg hgo]
    exact ⟨nofun, hp.cseq, iff_of_false (hsdp ▸ nofun) hnone⟩

namespace CliSess

/-- The response is not for the last request and the description was not freed before, or it is, and leaves
a description that is not freed; for `SETUP` there is one. -/
def SdpKept (s : CliSess) (text : Bytes) : Prop :=
  if lastCseq (respHdrs text) 0 ≠ s.curCseq.toNat then s.sdpFreed = false
  else match s.todo with
    | some .describe => ¬ FreedIn (respHdrs text)
    | some .setup => s.sdpFreed = false ∧ s.sdpInfo ≠ none
    | _ => s.sdpFreed = false

lemma exact_parse (msg : Bytes) :
    let hdrs := respHdrs (msg.takeWhile (· ≠ 0))
    Exact (RespFits (msg.takeWhile (· ≠ 0)))
      (fun p => p.1.cseq = lastCseq hdrs 0 ∧ (p.1.sdpInfo = .freed ↔ FreedIn hdrs)) (parse msg) := by
  have hparse := exact_parseRtspResp (msg.takeWhile (· ≠ 0))
  rw [parse]
  cases hrun : parseRtspResp (msg.takeWhile (· ≠ 0)) with
  | ok p =>
    rw [hrun] at hparse
    exact hparse
  | error f =>
    rw [hrun] at hparse
    exact hparse

lemma sdpFreed_setServerPorts (s : CliSess) (resp : RtspResp) : (s.setServerPorts resp).sdpFreed = s.sdpFreed := by
  rw [setServerPorts]
  split <;> rfl

lemma sdpFreed_keepSdpInfo (s : CliSess) (ptr : SdpPtr) : (s.keepSdpInfo ptr).sdpFreed = false ↔ ptr ≠ .freed := by
  cases ptr with
  | null => exact iff_of_true rfl nofun
  | info sdp => exact iff_of_true rfl nofun
  | freed => exact iff_of_false nofun (not_not_intro rfl)

lemma mediaSetUp_iff (s : CliSess) (resp : RtspResp) :
    (∃ t, s.mediaSetUp resp = .ok t ∧ t.sdpFreed = false) ↔ s.sdpFreed = false ∧ s.sdpInfo ≠ none := by
  rw [mediaSetUp]
  cases hfreed : s.sdpFreed with
  | true => exact iff_of_false nofun nofun
  | false =>
    cases hsdp : s.sdpInfo with
    | none => exact iff_of_false nofun nofun
    | some sdp =>
      refine iff_of_true ⟨_, rfl, ?_⟩ ⟨rfl, nofun⟩
      rw [apply_ite CliSess.sdpFreed, sdpFreed_setServerPorts, ite_self]
      split_ifs
      · rfl
      · exact hfreed

lemma runRtspStateMachine_iff (s : CliSess) {resp : RtspResp} {text : Bytes}
    (hcseq : resp.cseq = lastCseq (respHdrs text) 0) (hfreed : resp.sdpInfo = .freed ↔ FreedIn (respHdrs text)) :
    (∃ t, s.runRtspStateMachine resp = .ok t ∧ t.sdpFreed = false) ↔ s.SdpKept text := by
  have hkeep : (s.keepSessId resp).sdpFreed = s.sdpFreed ∧ (s.keepSessId resp).sdpInfo = s.sdpInfo
      ∧ (s.keepSessId resp).todo = s.todo := by
    rw [keepSessId]
    split_ifs <;> exact ⟨rfl, rfl, rfl⟩
  obtain ⟨hsdpFreed, hsdpInfo, htodo⟩ := hkeep
  have hok (t : CliSess) : (∃ t', (Except.ok t : Except CliFault CliSess) = .ok t' ∧ t'.sdpFreed = false)
      ↔ t.sdpFreed = false := by
    simp only [Except.ok.injEq, exists_eq_left']
  rw [runRtspStateMachine, SdpKept, hcseq]
  dsimp only
  by_cases hother : lastCseq (respHdrs text) 0 ≠ s.curCseq.toNat
  · rw [if_pos hother, if_pos hother]
    exact hok s
  rw [if_neg hother, if_neg hother, htodo, ← hsdpFreed, ← hsdpInfo]
  generalize s.keepSessId resp = s'
  cases s.todo with
  | none => exact hok s'
  | some method =>
    cases method with
    | describe => exact (hok _).trans ((sdpFreed_keepSdpInfo s' _).trans (not_congr hfreed))
    | setup => exact mediaSetUp_iff s' resp
    | options => exact hok _
    | play => exact hok _
    | pause => exact hok s'
    | getParameter => exact hok s'
    | setParameter => exact hok s'
    | teardown => exact hok s'

/-- Exactly when a response is handled without a fault and without a freed description left behind. -/
theorem handleRtspResp_iff (s : CliSess) (msg : Bytes) :
    (∃ t, s.handleRtspResp msg = .ok t ∧ t.sdpFreed = false)
      ↔ RespFits (msg.takeWhile (· ≠ 0)) ∧ s.SdpKept (msg.takeWhile (· ≠ 0)) := by
  refine (exact_parse msg).exists_bind_iff fun p hp => ?_
  rw [← runRtspStateMachine_iff s hp.1 hp.2]
  cases s.runRtspStateMachine p.1 with
  | error f => exact iff_of_false nofun nofun
  | ok t =>
    constructor
    · rintro ⟨_, ⟨rfl⟩, hfreed⟩
      exact ⟨t, rfl, hfreed⟩
    · rintro ⟨_, ⟨rfl⟩, hfreed⟩
      exact ⟨_, rfl, hfreed⟩

theorem reason_of_64_bytes :
    ¬ ∀ (s : CliSess) (msg : Bytes), ∃ t, s.handleRtspResp msg = .ok t ∧ t.sdpFreed = false := by
  intro h
  obtain ⟨t, ht, -⟩ := h (.fresh [] false) (bytes "RTSP/1.0 200 " ++ List.replicate 64 97)
  obtain ⟨p, hp, -⟩ := bind_eq_ok.mp ht
  have hfits := exact_parse (bytes "RTSP/1.0 200 " ++ List.replicate 64 97)
  rw [hp] at hfits
  exact absurd hfits.1.1 (by decide +kernel)

end CliSess

end Responses

end SimpleCode.LibRtspClient
