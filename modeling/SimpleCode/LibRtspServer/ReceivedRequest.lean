import SimpleCode.LibRtspServer.RecvBuf

set_option autoImplicit false

namespace SimpleCode.LibRtspServer

open Foundations Scan
open LibRtsp hiding Fault

namespace RecvBuf

variable {ended : Bool} {env : ParseEnv} {h h' : Handling} {line ptr text : Bytes}

section Refinement

lemma of_ifPrefix {α : Type} {tag str : Bytes} {x y : Except LibRtsp.Fault α} {r : α}
    (hr : (do if ← hasPrefix ended tag str then x else y) = .ok r) :
    LibRtsp.hasPrefix tag str ∧ x = .ok r ∨ ¬ LibRtsp.hasPrefix tag str ∧ y = .ok r := by
  obtain ⟨b, hb, hr⟩ := bind_eq_ok.mp hr
  rw [of_hasPrefix hb]
  cases b with
  | true => exact .inl ⟨rfl, hr⟩
  | false => exact .inr ⟨Bool.false_ne_true, hr⟩

lemma ifPrefix_of_not_cut {α : Type} {tag str : Bytes} {x y : Except LibRtsp.Fault α}
    (hcut : ended = true ∨ (str <+: tag → tag <+: str)) :
    (do if ← hasPrefix ended tag str then x else y) = if LibRtsp.hasPrefix tag str then x else y := by
  rw [hasPrefix_of_not_cut hcut]
  rfl

lemma ifPrefix_eq {α : Type} {tag str : Bytes} {x y : Except LibRtsp.Fault α} (htag : isLine tag)
    (hs : Stays ended str) :
    (do if ← hasPrefix ended tag str then x else y) = if LibRtsp.hasPrefix tag str then x else y := by
  rw [hasPrefix_eq htag hs]
  rfl

lemma of_transportField {r : Handling × Bool} (hr : transportField ended h ptr = .ok r) :
    h.transportField ptr = r := by
  rw [Handling.transportField]
  rcases of_ifPrefix hr with ⟨htcp, hr⟩ | ⟨htcp, hr⟩
  · exact (if_pos htcp).trans (Except.ok.inj hr)
  rw [if_neg htcp]
  rcases of_ifPrefix hr with ⟨hudp, hr⟩ | ⟨hudp, hr⟩
  · exact (if_pos (.inl hudp)).trans (Except.ok.inj hr)
  rcases of_ifPrefix hr with ⟨havp, hr⟩ | ⟨havp, hr⟩
  · exact (if_pos (.inr havp)).trans (Except.ok.inj hr)
  rw [if_neg (not_or.mpr ⟨hudp, havp⟩)]
  rcases of_ifPrefix hr with ⟨hunicast, hr⟩ | ⟨hunicast, hr⟩
  · exact (if_pos hunicast).trans (Except.ok.inj hr)
  rw [if_neg hunicast]
  rcases of_ifPrefix hr with ⟨hmode, hr⟩ | ⟨hmode, hr⟩
  · exact (if_pos hmode).trans (Except.ok.inj hr)
  rw [if_neg hmode]
  rcases of_ifPrefix hr with ⟨hport, hr⟩ | ⟨hport, hr⟩
  · exact (if_pos hport).trans (of_atEnd hr)
  rw [if_neg hport]
  rcases of_ifPrefix hr with ⟨hchn, hr⟩ | ⟨hchn, hr⟩
  · exact (if_pos hchn).trans (of_atEnd hr)
  · exact (if_neg hchn).trans (Except.ok.inj hr)

lemma transportFields_step (ended : Bool) (h : Handling) (hne : ptr ≠ []) :
    transportFields ended h ptr = (do
      let r ← transportField ended h ptr
      if r.2 then
        match nextField ended ptr with
        | .error f => .error f
        | .ok none => .ok r
        | .ok (some next) => transportFields ended r.1 next
      else .ok r) := by
  rw [transportFields, if_neg hne]
  congr 1
  funext r
  congr 1
  split <;> next hnext => rw [hnext]

lemma of_transportFields {r : Handling × Bool} (hr : transportFields ended h ptr = .ok r) :
    h.transportFields ptr = .ok r := by
  rw [Handling.transportFields]
  induction hn : ptr.length using Nat.strong_induction_on generalizing ptr h with
  | _ n ih =>
    by_cases hnil : ptr = []
    · rw [transportFields, if_pos hnil] at hr
      rw [fields, if_pos hnil, of_atEnd hr]
    rw [transportFields_step ended h hnil] at hr
    obtain ⟨p, hp, hr⟩ := bind_eq_ok.mp hr
    rw [fields_step h hnil, of_transportField hp]
    cases hgo : p.2 with
    | false =>
      rw [hgo] at hr
      exact hr
    | true =>
      rw [hgo, if_pos rfl] at hr
      rw [if_pos rfl]
      cases hnext : nextField ended ptr with
      | error f =>
        rw [hnext] at hr
        cases hr
      | ok next =>
        rw [hnext] at hr
        rw [of_nextField hnext]
        cases next with
        | none => exact hr
        | some next => exact ih _ (hn ▸ shorter_nextField hnext next rfl) hr rfl

lemma of_parseHdrTransport {r : Handling × Bool} (hr : parseHdrTransport ended h line = .ok r) :
    h.parseHdrTransport line = .ok r := by
  rw [Handling.parseHdrTransport]
  rcases of_ifPrefix hr with ⟨htag, hr⟩ | ⟨htag, hr⟩
  · exact (if_pos htag).trans (of_transportFields hr)
  · exact (if_neg htag).trans hr

lemma of_transportHdr {r : Handling × Bool} (hr : transportHdr ended h line = .ok r) :
    h.transportHdr line = .ok r := by
  obtain ⟨p, hp, hr⟩ := bind_eq_ok.mp hr
  rw [Handling.transportHdr, of_parseHdrTransport hp]
  exact hr

lemma of_reqHdr {r : Handling × Bool} (hr : reqHdr ended env h line = .ok r) :
    h.reqHdr env line = .ok r := by
  rw [Handling.reqHdr]
  rcases of_ifPrefix hr with ⟨hcseq, hr⟩ | ⟨hcseq, hr⟩
  · exact (if_pos hcseq).trans (congrArg Except.ok (of_atEnd hr))
  rw [if_neg hcseq]
  rcases of_ifPrefix hr with ⟨hsess, hr⟩ | ⟨hsess, hr⟩
  · exact (if_pos hsess).trans (congrArg Except.ok (of_atEnd hr))
  rw [if_neg hsess]
  rcases of_ifPrefix hr with ⟨huser, hr⟩ | ⟨huser, hr⟩
  · exact (if_pos huser).trans hr
  rw [if_neg huser]
  rcases of_ifPrefix hr with ⟨htransport, hr⟩ | ⟨htransport, hr⟩
  · exact (if_pos htransport).trans (of_transportHdr hr)
  · exact (if_neg htransport).trans hr

lemma reqHdrs_step (ended : Bool) (env : ParseEnv) (h : Handling) (found : Bool) (line : Bytes) :
    reqHdrs ended env h found line = (do
      let r ← reqHdr ended env h line
      let found := found || Handling.cseqFound line
      if r.2 then
        match getNextLine ended line with
        | .error f => .error f
        | .ok none => .ok (r.1, found)
        | .ok (some next) => reqHdrs ended env r.1 found next
      else .ok (r.1, found)) := by
  rw [reqHdrs]
  congr 1
  funext r
  dsimp only
  congr 1
  split <;> next hnext => rw [hnext]

lemma of_reqHdrs {found : Bool} {r : Handling × Bool} (hr : reqHdrs ended env h found line = .ok r) :
    h.reqHdrs env found line = .ok r := by
  induction hn : line.length using Nat.strong_induction_on generalizing line h found with
  | _ n ih =>
    rw [reqHdrs_step] at hr
    obtain ⟨p, hp, hr⟩ := bind_eq_ok.mp hr
    rw [Handling.reqHdrs_step found (of_reqHdr hp)]
    cases hgo : p.2 with
    | false =>
      rw [hgo] at hr
      exact hr
    | true =>
      rw [hgo, if_pos rfl] at hr
      rw [if_pos rfl]
      cases hnext : getNextLine ended line with
      | error f =>
        rw [hnext] at hr
        cases hr
      | ok next =>
        rw [hnext] at hr
        rw [of_getNextLine hnext]
        cases next with
        | none => exact hr
        | some next => exact ih _ (hn ▸ shorter_getNextLine hnext next rfl) hr rfl

lemma of_parseReqHdrs (hr : parseReqHdrs ended env h line = .ok h') : h.parseReqHdrs env line = .ok h' := by
  obtain ⟨p, hp, hr⟩ := bind_eq_ok.mp hr
  rw [Handling.parseReqHdrs, of_reqHdrs hp]
  exact hr

end Refinement

section Fields

def accepted (ptr : Bytes) : Bool := (Handling.blank.transportField ptr).2

def scansNumber (ptr : Bytes) : Bool :=
  LibRtsp.hasPrefix (bytes "client_port") ptr || LibRtsp.hasPrefix (bytes "interleaved") ptr

/-- The fields of a transport header that the scanner gets to, each with all that follows it. -/
def reachedFields (ptr : Bytes) : List Bytes :=
  if ptr = [] then []
  else ptr :: if accepted ptr then
      match _h : LibRtsp.nextField ptr with
      | some (some next) => reachedFields next
      | _ => []
    else []
termination_by ptr.length
decreasing_by exact length_nextField ‹_›

-- With a 0 in the buffer, something ends the field; without one, no string has to end in it.
def FieldInside (ended : Bool) (ptr : Bytes) : Prop :=
  if ended then accepted ptr → ¬ isField ptr else ¬ scansNumber ptr

lemma strpbrk_none {set : Bytes} (str : Bytes) : LibRtsp.strpbrk set str = none ↔ ∀ c ∈ str, c ∉ set := by
  induction str with
  | nil => exact iff_of_true rfl (by rintro _ ⟨⟩)
  | cons c str ih =>
    rw [LibRtsp.strpbrk, List.forall_mem_cons]
    split_ifs with hc
    · exact iff_of_false (by rintro ⟨⟩) fun hall => hall.1 hc
    · rw [ih, and_iff_right hc]

lemma nextField_none (ptr : Bytes) : LibRtsp.nextField ptr = none ↔ isField ptr := by
  rw [LibRtsp.nextField, Option.map_eq_none_iff, strpbrk_none]
  rfl

lemma isLine_of_isField (hfield : isField ptr) : isLine ptr := by
  intro c hc
  have hout := hfield c hc
  simp only [List.mem_cons, List.not_mem_nil, or_false, not_or] at hout
  exact hout.2

lemma transportField_eq (hs : Stays ended ptr) (hnum : ended = true ∨ ¬ scansNumber ptr) (h : Handling) :
    transportField ended h ptr = .ok (h.transportField ptr) := by
  suffices hok : ∃ r, transportField ended h ptr = .ok r by
    obtain ⟨r, hr⟩ := hok
    exact hr.trans (congrArg Except.ok (of_transportField hr).symm)
  have hscan {α : Type} (hnumber : scansNumber ptr) (a : α) : atEnd ended a = .ok a := by
    rw [hnum.resolve_right (not_not_intro hnumber)]
    rfl
  rw [transportField, ifPrefix_eq (by simp [isLine, bytes]) hs, ifPrefix_eq (by simp [isLine, bytes]) hs,
    ifPrefix_eq (by simp [isLine, bytes]) hs, ifPrefix_eq (by simp [isLine, bytes]) hs,
    ifPrefix_eq (by simp [isLine, bytes]) hs, ifPrefix_eq (by simp [isLine, bytes]) hs,
    ifPrefix_eq (by simp [isLine, bytes]) hs]
  split_ifs with htcp hudp havp hunicast hmode hport hchn
  · exact ⟨_, rfl⟩
  · exact ⟨_, rfl⟩
  · exact ⟨_, rfl⟩
  · exact ⟨_, rfl⟩
  · exact ⟨_, rfl⟩
  · exact ⟨_, hscan (Bool.or_eq_true_iff.mpr (.inl hport)) _⟩
  · exact ⟨_, hscan (Bool.or_eq_true_iff.mpr (.inr hchn)) _⟩
  · exact ⟨_, rfl⟩

lemma not_ok_transportField (hnum : scansNumber ptr) (h : Handling) (r : Handling × Bool) :
    transportField false h ptr ≠ .ok r := by
  intro hr
  have hne {tag : Bytes} (htag : LibRtsp.hasPrefix tag ptr) (hcut : ¬ tag <+: bytes "client_port"
      ∧ ¬ bytes "client_port" <+: tag ∧ ¬ tag <+: bytes "interleaved" ∧ ¬ bytes "interleaved" <+: tag) : False := by
    rcases Bool.or_eq_true_iff.mp hnum with hport | hchn
    · exact (List.prefix_or_prefix_of_prefix (hasPrefix_iff.mp htag) (hasPrefix_iff.mp hport)).elim hcut.1 hcut.2.1
    · exact (List.prefix_or_prefix_of_prefix (hasPrefix_iff.mp htag) (hasPrefix_iff.mp hchn)).elim hcut.2.2.1
        hcut.2.2.2
  rcases of_ifPrefix hr with ⟨htag, -⟩ | ⟨-, hr⟩
  · exact hne htag (by simp [bytes])
  rcases of_ifPrefix hr with ⟨htag, -⟩ | ⟨-, hr⟩
  · exact hne htag (by simp [bytes])
  rcases of_ifPrefix hr with ⟨htag, -⟩ | ⟨-, hr⟩
  · exact hne htag (by simp [bytes])
  rcases of_ifPrefix hr with ⟨htag, -⟩ | ⟨-, hr⟩
  · exact hne htag (by simp [bytes])
  rcases of_ifPrefix hr with ⟨htag, -⟩ | ⟨-, hr⟩
  · exact hne htag (by simp [bytes])
  rcases of_ifPrefix hr with ⟨-, hr⟩ | ⟨hport, hr⟩
  · cases hr
  rcases of_ifPrefix hr with ⟨-, hr⟩ | ⟨hchn, hr⟩
  · cases hr
  · exact (Bool.or_eq_true_iff.mp hnum).elim hport hchn

lemma reachedFields_step (hne : ptr ≠ []) : reachedFields ptr = ptr :: if accepted ptr then
    match LibRtsp.nextField ptr with
    | some (some next) => reachedFields next
    | _ => []
    else [] := by
  rw [reachedFields, if_neg hne]
  congr 2
  cases hnext : LibRtsp.nextField ptr with
  | none => rfl
  | some next => cases next <;> rfl

lemma fieldInside_true : FieldInside true ptr ↔ (accepted ptr → ¬ isField ptr) := Iff.of_eq (if_pos rfl)

lemma fieldInside_false : FieldInside false ptr ↔ ¬ scansNumber ptr := Iff.of_eq (if_neg Bool.false_ne_true)

lemma fieldInside_iff (hs : Stays ended ptr) (hnum : ended = true ∨ ¬ scansNumber ptr) :
    FieldInside ended ptr ↔ (accepted ptr → ¬ isField ptr) := by
  cases ended with
  | true => exact fieldInside_true
  | false =>
    refine iff_of_true (fieldInside_false.mpr (hnum.resolve_left nofun)) fun _ hfield => ?_
    exact hs.resolve_left nofun (isLine_of_isField hfield)

lemma transportFields_iff (hs : Stays ended ptr) (h : Handling) :
    (∃ r, transportFields ended h ptr = .ok r) ↔ ∀ f ∈ reachedFields ptr, FieldInside ended f := by
  induction hn : ptr.length using Nat.strong_induction_on generalizing ptr h with
  | _ n ih =>
    by_cases hnil : ptr = []
    · rw [transportFields, if_pos hnil, reachedFields, if_pos hnil]
      exact iff_of_true ⟨_, atEnd_eq (hnil ▸ hs) _⟩ nofun
    rw [transportFields_step ended h hnil, reachedFields_step hnil, List.forall_mem_cons]
    by_cases hnum : ended = true ∨ ¬ scansNumber ptr
    · have hacc : (h.transportField ptr).2 = accepted ptr := Handling.transportField_snd h .blank ptr
      obtain ⟨hnext, hstays⟩ := nextField_eq hs
      obtain ⟨p, hp⟩ : ∃ p, h.transportField ptr = p := ⟨_, rfl⟩
      rw [hp] at hacc
      rw [transportField_eq hs hnum h, hp, ok_bind, hacc, hnext, fieldInside_iff hs hnum]
      cases hgo : accepted ptr with
      | false => exact iff_of_true ⟨p, rfl⟩ ⟨nofun, nofun⟩
      | true =>
        rw [if_pos rfl, if_pos rfl, ← nextField_none]
        cases hfield : LibRtsp.nextField ptr with
        | none =>
          refine iff_of_false (fun ⟨r, hr⟩ => ?_) fun hall => hall.1 rfl rfl
          dsimp only at hr
          cases hr
        | some next =>
          cases next with
          | none => exact iff_of_true ⟨p, rfl⟩ ⟨fun _ => nofun, nofun⟩
          | some next =>
            refine (ih _ (hn ▸ length_nextField hfield) (hstays next hfield) p.1 rfl).trans ?_
            exact (and_iff_right fun _ => nofun).symm
    · obtain ⟨hended, hscan⟩ := not_or.mp hnum
      rw [Bool.not_eq_true] at hended
      subst hended
      refine iff_of_false (fun ⟨r, hr⟩ => ?_) fun hall => fieldInside_false.mp hall.1 (not_not.mp hscan)
      obtain ⟨p, hp, -⟩ := bind_eq_ok.mp hr
      exact not_ok_transportField (not_not.mp hscan) h p hp

end Fields

section Headers

def FieldsInside (ended : Bool) (line : Bytes) : Prop :=
  ∀ ptr, line = bytes "Transport: " ++ ptr → ∀ f ∈ reachedFields ptr, FieldInside ended f

-- Without a 0 in the buffer, a header is only read as far as its end, unless the loop ends with it.
def HdrInside (ended : Bool) (line : Bytes) : Prop :=
  if ended then FieldsInside true line
  else if LibRtsp.hasPrefix (bytes "Transport") line ∧ ¬ LibRtsp.hasPrefix (bytes "Transport: ") line then
    ¬ line <+: bytes "Transport: "
  else Ends line ∧ ¬ LibRtsp.hasPrefix (bytes "CSeq") line ∧ ¬ LibRtsp.hasPrefix (bytes "Session") line
    ∧ FieldsInside false line

lemma transportField_false_snd {r : Handling × Bool} (hr : transportField false h ptr = .ok r) : r.2 = true := by
  rcases of_ifPrefix hr with ⟨-, hr⟩ | ⟨-, hr⟩
  · cases hr
    rfl
  rcases of_ifPrefix hr with ⟨-, hr⟩ | ⟨-, hr⟩
  · cases hr
    rfl
  rcases of_ifPrefix hr with ⟨-, hr⟩ | ⟨-, hr⟩
  · cases hr
    rfl
  rcases of_ifPrefix hr with ⟨-, hr⟩ | ⟨-, hr⟩
  · cases hr
    rfl
  rcases of_ifPrefix hr with ⟨-, hr⟩ | ⟨-, hr⟩
  · cases hr
    rfl
  rcases of_ifPrefix hr with ⟨-, hr⟩ | ⟨-, hr⟩
  · cases hr
  rcases of_ifPrefix hr with ⟨-, hr⟩ | ⟨-, hr⟩
  · cases hr
  · cases hr
    rfl

lemma transportFields_false_snd {r : Handling × Bool} (hr : transportFields false h ptr = .ok r) : r.2 = true := by
  induction hn : ptr.length using Nat.strong_induction_on generalizing ptr h with
  | _ n ih =>
    by_cases hnil : ptr = []
    · rw [transportFields, if_pos hnil] at hr
      cases hr
    rw [transportFields_step false h hnil] at hr
    obtain ⟨p, hp, hr⟩ := bind_eq_ok.mp hr
    rw [if_pos (transportField_false_snd hp)] at hr
    cases hnext : nextField false ptr with
    | error f =>
      rw [hnext] at hr
      cases hr
    | ok next =>
      rw [hnext] at hr
      cases next with
      | none =>
        cases hr
        exact transportField_false_snd hp
      | some next => exact ih _ (hn ▸ shorter_nextField hnext next rfl) hr rfl

lemma of_reqHdr_false {r : Handling × Bool} (hr : reqHdr false env h line = .ok r) :
    ¬ LibRtsp.hasPrefix (bytes "CSeq") line ∧ ¬ LibRtsp.hasPrefix (bytes "Session") line
      ∧ (r.2 = true ∨ LibRtsp.hasPrefix (bytes "Transport") line
        ∧ ¬ LibRtsp.hasPrefix (bytes "Transport: ") line) := by
  rcases of_ifPrefix hr with ⟨-, hr⟩ | ⟨hcseq, hr⟩
  · cases hr
  rcases of_ifPrefix hr with ⟨-, hr⟩ | ⟨hsess, hr⟩
  · cases hr
  refine ⟨hcseq, hsess, ?_⟩
  rcases of_ifPrefix hr with ⟨-, hr⟩ | ⟨-, hr⟩
  · cases hr
    exact .inl rfl
  rcases of_ifPrefix hr with ⟨htransport, hr⟩ | ⟨-, hr⟩
  · obtain ⟨p, hp, hr⟩ := bind_eq_ok.mp hr
    rcases of_ifPrefix hp with ⟨-, hp⟩ | ⟨htag, hp⟩
    · have hparsed := transportFields_false_snd hp
      obtain ⟨h', parsed⟩ := p
      obtain rfl : parsed = true := hparsed
      cases hr
      exact .inl rfl
    · exact .inr ⟨htransport, htag⟩
  · cases hr
    exact .inl rfl

lemma reqHdr_transport (hs : Stays ended (bytes "Transport: " ++ ptr)) :
    reqHdr ended env h (bytes "Transport: " ++ ptr) = (do
      let (h, parsed) ← transportFields ended h ptr
      .ok (if parsed then (h, true) else (h.status .internalServerError, false))) := by
  have hno {tag : Bytes} (h : ¬ tag <+: bytes "Transport: " ∧ ¬ bytes "Transport: " <+: tag) :
      ¬ LibRtsp.hasPrefix tag (bytes "Transport: " ++ ptr) = true :=
    Bool.eq_false_iff.mp (hasPrefix_ne h ptr)
  have htag : LibRtsp.hasPrefix (bytes "Transport") (bytes "Transport: " ++ ptr) :=
    hasPrefix_iff.mpr (List.IsPrefix.trans (by simp [bytes]) (List.prefix_append (bytes "Transport: ") ptr))
  rw [reqHdr, ifPrefix_eq (by simp [isLine, bytes]) hs, ifPrefix_eq (by simp [isLine, bytes]) hs,
    ifPrefix_eq (by simp [isLine, bytes]) hs, ifPrefix_eq (by simp [isLine, bytes]) hs,
    if_neg (hno (by simp [bytes])), if_neg (hno (by simp [bytes])), if_neg (hno (by simp [bytes])), if_pos htag,
    transportHdr, parseHdrTransport, ifPrefix_eq (by simp [isLine, bytes]) hs, if_pos (hasPrefix_append _ ptr),
    List.drop_left]

lemma hasPrefix_cut {tag str : Bytes} (hcut : str <+: tag) (hne : ¬ tag <+: str) :
    hasPrefix false tag str = .error .overread := by
  induction tag generalizing str with
  | nil => exact absurd List.nil_prefix hne
  | cons t tag ih =>
    cases str with
    | nil => rfl
    | cons c str =>
      obtain ⟨rfl, hrest⟩ := List.cons_prefix_cons.mp hcut
      rw [hasPrefix, if_pos rfl]
      exact ih hrest fun hp => hne (List.cons_prefix_cons.mpr ⟨rfl, hp⟩)

lemma reqHdr_refused (htransport : LibRtsp.hasPrefix (bytes "Transport") line)
    (htag : ¬ LibRtsp.hasPrefix (bytes "Transport: ") line) : reqHdr false env h line =
      if line <+: bytes "Transport: " then .error .overread else .ok (h.status .internalServerError, false) := by
  have hno {tag : Bytes} (hne : ¬ bytes "Transport" <+: tag ∧ ¬ tag <+: bytes "Transport") :
      (line <+: tag → tag <+: line) ∧ ¬ LibRtsp.hasPrefix tag line = true := by
    have hp := hasPrefix_iff.mp htransport
    exact ⟨fun hcut => absurd (hp.trans hcut) hne.1, fun htag =>
      (List.prefix_or_prefix_of_prefix hp (hasPrefix_iff.mp htag)).elim hne.1 hne.2⟩
  have hcseq := @hno (bytes "CSeq") (by simp [bytes])
  have hsess := @hno (bytes "Session") (by simp [bytes])
  have huser := @hno (bytes "User-Agent") (by simp [bytes])
  rw [reqHdr, ifPrefix_of_not_cut (.inr hcseq.1), if_neg hcseq.2, ifPrefix_of_not_cut (.inr hsess.1),
    if_neg hsess.2, ifPrefix_of_not_cut (.inr huser.1), if_neg huser.2,
    ifPrefix_of_not_cut (.inr fun _ => hasPrefix_iff.mp htransport), if_pos htransport, transportHdr,
    parseHdrTransport]
  split_ifs with hcut
  · rw [hasPrefix_cut hcut (mt hasPrefix_iff.mpr htag)]
    rfl
  · rw [ifPrefix_of_not_cut (.inr fun h => absurd h hcut), if_neg htag]
    rfl

lemma fieldsInside_transport : FieldsInside ended (bytes "Transport: " ++ ptr)
    ↔ ∀ f ∈ reachedFields ptr, FieldInside ended f := by
  refine ⟨fun hall => hall ptr rfl, fun hall ptr' hptr => ?_⟩
  exact List.append_cancel_left hptr ▸ hall

lemma fieldsInside_other (htag : ¬ LibRtsp.hasPrefix (bytes "Transport: ") line) : FieldsInside ended line := by
  rintro ptr rfl
  exact absurd (hasPrefix_append _ ptr) htag

lemma reqHdr_other (hs : Stays ended line) (htag : ¬ LibRtsp.hasPrefix (bytes "Transport: ") line)
    (hnum : ended = true ∨ ¬ LibRtsp.hasPrefix (bytes "CSeq") line ∧ ¬ LibRtsp.hasPrefix (bytes "Session") line) :
    ∃ r, reqHdr ended env h line = .ok r := by
  rw [reqHdr, ifPrefix_eq (by simp [isLine, bytes]) hs, ifPrefix_eq (by simp [isLine, bytes]) hs,
    ifPrefix_eq (by simp [isLine, bytes]) hs, ifPrefix_eq (by simp [isLine, bytes]) hs, transportHdr,
    parseHdrTransport, ifPrefix_eq (by simp [isLine, bytes]) hs, if_neg htag]
  split_ifs with hcseq hsess
  · obtain rfl := hnum.resolve_right fun hno => hno.1 hcseq
    exact ⟨_, rfl⟩
  · obtain rfl := hnum.resolve_right fun hno => hno.2 hsess
    exact ⟨_, rfl⟩
  · exact ⟨_, rfl⟩
  · exact ⟨_, rfl⟩
  · exact ⟨_, rfl⟩

lemma reqHdr_ok_iff (hs : Stays ended line) (env : ParseEnv) (h : Handling)
    (hnum : ended = true ∨ ¬ LibRtsp.hasPrefix (bytes "CSeq") line ∧ ¬ LibRtsp.hasPrefix (bytes "Session") line) :
    (∃ r, reqHdr ended env h line = .ok r) ↔ FieldsInside ended line := by
  by_cases htag : LibRtsp.hasPrefix (bytes "Transport: ") line
  · obtain ⟨ptr, rfl⟩ := hasPrefix_iff.mp htag
    have hptr : Stays ended ptr := hs.imp_right fun hline hrest => hline (isLine.append (by simp [isLine, bytes]) hrest)
    rw [reqHdr_transport hs, fieldsInside_transport, ← transportFields_iff hptr h]
    constructor
    · rintro ⟨r, hr⟩
      obtain ⟨p, hp, -⟩ := bind_eq_ok.mp hr
      exact ⟨p, hp⟩
    · rintro ⟨p, hp⟩
      rw [hp]
      exact ⟨_, rfl⟩
  · exact iff_of_true (reqHdr_other hs htag hnum) (fieldsInside_other htag)

lemma hdrInside_iff (env : ParseEnv) (h : Handling) : HdrInside ended line
    ↔ ∃ r, reqHdr ended env h line = .ok r ∧ (r.2 = true → ended = true ∨ Ends line) := by
  rw [HdrInside]
  cases ended with
  | true =>
    rw [if_pos rfl, ← reqHdr_ok_iff (.inl rfl) env h (.inl rfl)]
    exact exists_congr fun r => (and_iff_left fun _ => .inl rfl).symm
  | false =>
    rw [if_neg Bool.false_ne_true]
    split_ifs with hrefused
    · rw [reqHdr_refused hrefused.1 hrefused.2]
      split_ifs with hcut
      · exact iff_of_false (not_not_intro hcut) fun ⟨r, hr, _⟩ => nomatch hr
      · exact iff_of_true hcut ⟨_, rfl, nofun⟩
    · constructor
      · rintro ⟨hends, hcseq, hsess, hfields⟩
        obtain ⟨r, hr⟩ := (reqHdr_ok_iff (.inr (stays_of_ends hends)) env h (.inr ⟨hcseq, hsess⟩)).mpr hfields
        exact ⟨r, hr, fun _ => .inr hends⟩
      · rintro ⟨r, hr, hends⟩
        obtain ⟨hcseq, hsess, hgo⟩ := of_reqHdr_false hr
        have hline := (hends (hgo.resolve_right hrefused)).resolve_left nofun
        refine ⟨hline, hcseq, hsess, ?_⟩
        exact (reqHdr_ok_iff (.inr (stays_of_ends hline)) env h (.inr ⟨hcseq, hsess⟩)).mp ⟨r, hr⟩

lemma getNextLine_ok_iff {str : Bytes} : (∃ r, getNextLine ended str = .ok r) ↔ ended = true ∨ Ends str := by
  cases ended with
  | true => exact iff_of_true ⟨_, getNextLine_true str⟩ (.inl rfl)
  | false =>
    rw [getNextLine_eq, or_iff_right Bool.false_ne_true]
    split_ifs with hends
    · exact iff_of_true ⟨_, rfl⟩ hends
    · exact iff_of_false (fun ⟨r, hr⟩ => nomatch hr) hends

lemma reqHdrs_iff (found : Bool) (h : Handling) : (∃ r, reqHdrs ended env h found line = .ok r)
    ↔ ∀ l ∈ Handling.reached env (lines line), HdrInside ended l := by
  induction hn : line.length using Nat.strong_induction_on generalizing line h found with
  | _ n ih =>
    rw [reqHdrs_step, Handling.lines_eq, Handling.reached, List.forall_mem_cons, hdrInside_iff env h]
    constructor
    · rintro ⟨r, hr⟩
      obtain ⟨p, hp, hr⟩ := bind_eq_ok.mp hr
      dsimp only at hr
      rw [Handling.goesOn_reqHdr (of_reqHdr hp)]
      cases hgo : p.2 with
      | false => exact ⟨⟨p, hp, fun h => absurd (hgo.symm.trans h) Bool.false_ne_true⟩, by rintro _ ⟨⟩⟩
      | true =>
        rw [hgo, if_pos rfl] at hr
        cases hnext : getNextLine ended line with
        | error f =>
          rw [hnext] at hr
          cases hr
        | ok next =>
          rw [hnext] at hr
          refine ⟨⟨p, hp, fun _ => getNextLine_ok_iff.mp ⟨next, hnext⟩⟩, ?_⟩
          rw [hdrLines, of_getNextLine hnext]
          cases next with
          | none => rintro _ ⟨⟩
          | some next => exact (ih _ (hn ▸ shorter_getNextLine hnext next rfl) _ p.1 rfl).mp ⟨r, hr⟩
    · rintro ⟨⟨p, hp, hends⟩, hrest⟩
      rw [hp, ok_bind]
      dsimp only
      rw [Handling.goesOn_reqHdr (of_reqHdr hp)] at hrest
      cases hgo : p.2 with
      | false => exact ⟨_, rfl⟩
      | true =>
        obtain ⟨next, hnext⟩ := getNextLine_ok_iff.mpr (hends hgo)
        rw [hgo, hdrLines, of_getNextLine hnext] at hrest
        rw [if_pos rfl, hnext]
        cases next with
        | none => exact ⟨_, rfl⟩
        | some next => exact (ih _ (hn ▸ shorter_getNextLine hnext next rfl) _ p.1 rfl).mpr hrest

end Headers

section RequestLine

lemma parseReqLine_eq (hs : Stays ended text) (env : ParseEnv) (h : Handling) :
    parseReqLine ended env h text = Handling.parseReqLine env h text := by
  rw [parseReqLine, Handling.parseReqLine, getRtspMethod_eq hs, ok_bind]
  dsimp only
  split_ifs
  · rfl
  · obtain ⟨hword, hptr⟩ := getNextWord_eq hs
    rw [hword, ok_bind]
    cases hnext : LibRtspServer.getNextWord text with
    | none => rfl
    | some ptr =>
      have hs' := hptr ptr hnext
      dsimp only
      rw [wordOf_eq hs', ok_bind]
      cases strndup env.dupUri (LibRtspServer.wordOf ptr) with
      | none => rfl
      | some uri =>
        obtain ⟨hword', hptr'⟩ := getNextWord_eq hs'
        dsimp only
        rw [hword', ok_bind]
        cases hnext' : LibRtspServer.getNextWord ptr with
        | none => rfl
        | some ptr' =>
          cases hver : strndup env.dupReqVer (LibRtspServer.wordOf ptr') with
          | none => simp only [wordOf_eq (hptr' ptr' hnext'), ok_bind, hver]
          | some ver => simp only [wordOf_eq (hptr' ptr' hnext'), ok_bind, hver]

lemma namesRead_of_ok (hr : Handling.parseReqLine env h text = .ok h') : Handling.NamesRead env text := by
  intro hmethod ptr hptr
  rw [Handling.parseReqLine] at hr
  dsimp only at hr
  rw [if_neg hmethod, Option.mem_def.mp hptr] at hr
  cases huri : env.dupUri with
  | false =>
    rw [huri] at hr
    cases hr
  | true =>
    refine ⟨rfl, fun ptr' hptr' => ?_⟩
    rw [huri] at hr
    dsimp only [strndup] at hr
    rw [if_pos rfl, Option.mem_def.mp hptr'] at hr
    cases hver : env.dupReqVer with
    | false =>
      rw [hver] at hr
      cases hr
    | true => rfl

lemma of_parseText (hr : parseText ended env h text = .ok h') : h.parseRtspReq env text = .ok h' := by
  rw [parseText] at hr
  rw [Handling.parseRtspReq]
  split_ifs at hr ⊢
  · exact hr
  · obtain ⟨h₁, hline, hr⟩ := bind_eq_ok.mp hr
    obtain ⟨next, hnext, hr⟩ := bind_eq_ok.mp hr
    rw [parseReqLine_eq ((getNextLine_ok_iff.mp ⟨next, hnext⟩).imp_right stays_of_ends)] at hline
    dsimp only
    rw [hline, ok_bind, of_getNextLine hnext]
    cases next with
    | none => exact hr
    | some line =>
      obtain ⟨h₂, hhdrs, hr⟩ := bind_eq_ok.mp hr
      dsimp only
      rw [of_parseReqHdrs hhdrs]
      exact hr

/-- What the parser needs of a text: the words of its first line, its line ends, and the headers. -/
def Inside (ended : Bool) (env : ParseEnv) (text : Bytes) : Prop :=
  Handling.NamesRead env text ∧ (ended = true ∨ Ends text)
    ∧ ∀ line ∈ Handling.reached env (hdrLines text), HdrInside ended line

lemma parseText_iff : (∃ h', parseText ended env h text = .ok h') ↔ (h.state = .ready → Inside ended env text) := by
  rw [parseText]
  split_ifs with hstate
  · exact iff_of_true ⟨h, rfl⟩ fun hready => absurd hready hstate
  · rw [imp_iff_right (not_not.mp hstate)]
    constructor
    · rintro ⟨h', hr⟩
      obtain ⟨h₁, hline, hr⟩ := bind_eq_ok.mp hr
      obtain ⟨next, hnext, hr⟩ := bind_eq_ok.mp hr
      have hends := getNextLine_ok_iff.mp ⟨next, hnext⟩
      rw [parseReqLine_eq (hends.imp_right stays_of_ends)] at hline
      refine ⟨namesRead_of_ok hline, hends, ?_⟩
      rw [hdrLines, of_getNextLine hnext]
      cases next with
      | none => rintro _ ⟨⟩
      | some line =>
        obtain ⟨h₂, hhdrs, -⟩ := bind_eq_ok.mp hr
        obtain ⟨r, hr, -⟩ := bind_eq_ok.mp hhdrs
        exact (reqHdrs_iff false h₁).mp ⟨r, hr⟩
    · rintro ⟨hnames, hends, hhdrs⟩
      obtain ⟨next, hnext⟩ := getNextLine_ok_iff.mpr hends
      obtain ⟨h₁, hline, -⟩ := Handling.parseReqLine_spec hnames { h with
        resp.ver := strndup env.dupVer rtspVersion
        resp.server := strndup env.dupServer (bytes "Zmodo-RTSP-Server")
        resp.cseq := h.req.cseq
        resp.sessId := h.req.sessId }
      rw [parseReqLine_eq (hends.imp_right stays_of_ends), hline, ok_bind, hnext, ok_bind]
      rw [hdrLines, of_getNextLine hnext] at hhdrs
      cases next with
      | none => exact ⟨_, rfl⟩
      | some line =>
        obtain ⟨r, hr⟩ := (reqHdrs_iff false h₁).mpr hhdrs
        dsimp only
        rw [parseReqHdrs, hr]
        exact ⟨_, rfl⟩

end RequestLine

section Runs

variable {buf next chunk : Bytes}

lemma length_recv (hbuf : buf.length = recvBufSz) (hfit : recvOffset buf + chunk.length ≤ recvBufSz) :
    (recv buf chunk).length = recvBufSz := by
  rw [recv, List.length_append, List.length_append, List.length_take, List.length_drop]
  omega

lemma receive_cases (hnext : receive buf chunk = some next) : recvOffset buf + chunk.length ≤ recvBufSz
    ∧ (next = recv buf chunk ∨ next = 0 :: (recv buf chunk).tail) := by
  obtain ⟨p, hp, rfl⟩ := Option.map_eq_some_iff.mp hnext
  rw [filterDataFromRtspSd] at hp
  dsimp only at hp
  by_cases hno : chunk = [] ∨ recvBufSz < recvOffset buf + chunk.length
  · rw [if_pos hno] at hp
    cases hp
  rw [if_neg hno] at hp
  refine ⟨not_lt.mp (not_or.mp hno).2, ?_⟩
  split_ifs at hp
  · exact .inl (congrArg Prod.fst (Option.some.inj hp)).symm
  · exact .inl (congrArg Prod.fst (Option.some.inj hp)).symm
  · exact .inr (congrArg Prod.fst (Option.some.inj hp)).symm
  · exact .inl (congrArg Prod.fst (Option.some.inj hp)).symm

lemma length_receive (hbuf : buf.length = recvBufSz) (hnext : receive buf chunk = some next) :
    next.length = recvBufSz := by
  obtain ⟨hfit, rfl | rfl⟩ := receive_cases hnext
  · exact length_recv hbuf hfit
  · have hlen := length_recv hbuf hfit
    rw [List.length_cons, List.length_tail, hlen]
    decide

/-- What was received does not fill the buffer. -/
def LeavesRoom (buf chunk : Bytes) : Prop := recvOffset buf + chunk.length < recvBufSz

lemma getLast_receive (hbuf : buf.length = recvBufSz) (hlast : buf.getLast? = some 0)
    (hroom : LeavesRoom buf chunk) (hnext : receive buf chunk = some next) : next.getLast? = some 0 := by
  have hdrop : buf.drop (recvOffset buf + chunk.length) ≠ [] := by
    rw [Ne, List.drop_eq_nil_iff, hbuf]
    exact not_le.mpr hroom
  have hrecv : (recv buf chunk).getLast? = some 0 := by
    rw [recv, List.getLast?_append_of_ne_nil _ hdrop, List.getLast?_drop, if_neg]
    · exact hlast
    · rw [hbuf]
      exact not_le.mpr hroom
  obtain ⟨hfit, rfl | rfl⟩ := receive_cases hnext
  · exact hrecv
  · cases hcons : recv buf chunk with
    | nil => rfl
    | cons c bs =>
      cases bs with
      | nil => rfl
      | cons c' bs =>
        rw [hcons] at hrecv
        exact hrecv

/-- Whatever was received, the parser stays in the buffer exactly if the text there is `Inside`; as long as
there is room left in the buffer, a 0 ends that text. -/
theorem parseRtspReq_iff {chunks : List Bytes} (env : ParseEnv) (h : Handling)
    (hrun : run receive (mallocz recvBufSz) chunks = some buf) :
    buf.length = recvBufSz
      ∧ ((∃ h', parseRtspReq env h buf = .ok h') ↔ (h.state = .ready → Inside (decide (0 ∈ buf)) env (textOf buf)))
      ∧ (MeetsAlong receive LeavesRoom (mallocz recvBufSz) chunks → 0 ∈ buf) := by
  have hlen : (mallocz recvBufSz).length = recvBufSz := List.length_replicate
  refine ⟨run_invariant (fun _ _ _ => length_receive) hlen hrun, parseText_iff, fun hroom => ?_⟩
  have hlast : (mallocz recvBufSz).getLast? = some 0 := by
    rw [mallocz, List.getLast?_replicate, if_neg (by decide)]
  obtain ⟨-, hlast⟩ := run_invariant_along (I := fun buf => buf.length = recvBufSz ∧ buf.getLast? = some 0)
    (fun _ _ _ hI hroom hnext => ⟨length_receive hI.1 hnext, getLast_receive hI.1 hI.2 hroom hnext⟩)
    ⟨hlen, hlast⟩ hroom hrun
  exact List.mem_of_getLast? hlast

def firstReceived (chunk : Bytes) : Bytes := chunk ++ mallocz (recvBufSz - chunk.length)

lemma receive_over (hbuf : buf.head? ≠ some 36) (hhead : chunk.head? ≠ some 36) (hne : chunk ≠ [])
    (hroom : chunk.length < recvBufSz) : receive buf chunk = some (chunk ++ buf.drop chunk.length) := by
  have hoffset : recvOffset buf = 0 := if_neg hbuf
  have hrecv : recv buf chunk = chunk ++ buf.drop chunk.length := by
    rw [recv, hoffset, Nat.zero_add, List.take_zero, List.nil_append]
  have hfirst : (chunk ++ buf.drop chunk.length).head? ≠ some 36 := by
    rw [List.head?_append_of_ne_nil _ hne]
    exact hhead
  rw [receive, filterDataFromRtspSd, hoffset, Nat.zero_add,
    if_neg (not_or.mpr ⟨hne, not_lt.mpr hroom.le⟩), Nat.sub_zero, if_neg hroom.ne, hrecv, if_neg fun h => hfirst h.1,
    if_neg hfirst]
  rfl

lemma receive_first (hhead : chunk.head? ≠ some 36) (hne : chunk ≠ []) (hroom : chunk.length < recvBufSz) :
    receive (mallocz recvBufSz) chunk = some (firstReceived chunk) := by
  have hstart : (mallocz recvBufSz).head? ≠ some 36 := by
    rw [mallocz, List.head?_replicate]
    decide
  rw [receive_over hstart hhead hne hroom, mallocz, List.drop_replicate]
  rfl

lemma textOf_firstReceived (h : 0 ∉ chunk) (hroom : chunk.length < recvBufSz) :
    textOf (firstReceived chunk) = chunk ∧ 0 ∈ firstReceived chunk := by
  have hsucc : ∃ n, recvBufSz - chunk.length = n + 1 := Nat.exists_eq_add_one.mpr (Nat.sub_pos_of_lt hroom)
  obtain ⟨n, hn⟩ := hsucc
  rw [textOf, firstReceived, hn, mallocz, List.replicate_succ]
  refine ⟨?_, List.mem_append_right _ List.mem_cons_self⟩
  have hne : ∀ c ∈ chunk, decide (c ≠ 0) = true := by
    rintro c hc
    exact decide_eq_true fun h0 : c = 0 => h (h0 ▸ hc)
  rw [List.takeWhile_append_of_pos hne, List.takeWhile_cons_of_neg (by decide), List.append_nil]

def optionsRequest : Bytes := bytes "OPTIONS rtsp://h RTSP/1.0" ++ crlf ++ bytes "CSeq: 1" ++ crlf ++ crlf

def serverEnv : ParseEnv := ⟨fun _ => true, fun _ => true, true, true, true, true, true⟩

def playRequest : Bytes := bytes "PLAY rtsp://h RTSP/1.0" ++ crlf ++ bytes "CSeq: 2" ++ crlf ++ crlf

def playReceived : Bytes := playRequest ++ (firstReceived optionsRequest).drop playRequest.length

theorem parseRtspReq_iff_play :
    run receive (mallocz recvBufSz) [optionsRequest, playRequest] = some playReceived
      ∧ playReceived.length = recvBufSz
      ∧ ((∃ h', parseRtspReq serverEnv .blank playReceived = .ok h')
        ↔ (Handling.blank.state = .ready → Inside (decide (0 ∈ playReceived)) serverEnv (textOf playReceived)))
      ∧ (MeetsAlong receive LeavesRoom (mallocz recvBufSz) [optionsRequest, playRequest] → 0 ∈ playReceived) := by
  have hfirst : receive (mallocz recvBufSz) optionsRequest = some (firstReceived optionsRequest) :=
    receive_first (by decide +kernel) (by decide +kernel) (by decide +kernel)
  have hstart : (firstReceived optionsRequest).head? ≠ some 36 := by
    rw [firstReceived, List.head?_append_of_ne_nil _ (by decide +kernel)]
    decide +kernel
  have hsecond : receive (firstReceived optionsRequest) playRequest = some playReceived :=
    receive_over hstart (by decide +kernel) (by decide +kernel) (by decide +kernel)
  have hrun : run receive (mallocz recvBufSz) [optionsRequest, playRequest] = some playReceived :=
    run_cons.mpr ⟨_, hfirst, run_cons.mpr ⟨_, hsecond, rfl⟩⟩
  exact ⟨hrun, parseRtspReq_iff serverEnv .blank hrun⟩

-- The line ends behind the transport, and nothing ends the field there.
def transportRequest : Bytes := bytes "SETUP rtsp://h RTSP/1.0" ++ crlf ++ bytes "Transport: RTP/AVP"

theorem transport_not_delimited : ¬ ∀ (env : ParseEnv) (h : Handling) (chunks : List Bytes) (buf : Bytes),
    run receive (mallocz recvBufSz) chunks = some buf → ∃ h', parseRtspReq env h buf = .ok h' := by
  intro hall
  have hroom : transportRequest.length < recvBufSz := by decide +kernel
  have hrun := @receive_first transportRequest (by decide +kernel) (by decide +kernel) hroom
  have hsafe := hall serverEnv .blank [transportRequest] _ (run_cons.mpr ⟨_, hrun, rfl⟩)
  obtain ⟨htext, hended⟩ := @textOf_firstReceived transportRequest (by decide +kernel) hroom
  obtain ⟨-, -, hhdrs⟩ := parseText_iff.mp hsafe rfl
  rw [htext, decide_eq_true hended] at hhdrs
  have hnext : LibRtsp.getNextLine transportRequest = some (bytes "Transport: " ++ bytes "RTP/AVP") := by
    decide +kernel
  rw [hdrLines, hnext] at hhdrs
  dsimp only at hhdrs
  rw [Handling.lines_eq, Handling.reached] at hhdrs
  have hhdr := hhdrs _ List.mem_cons_self
  rw [HdrInside, if_pos rfl, fieldsInside_transport, reachedFields_step (by decide)] at hhdr
  exact fieldInside_true.mp (hhdr _ List.mem_cons_self) (by decide +kernel) (by decide +kernel)

end Runs

end RecvBuf

end SimpleCode.LibRtspServer
