import WebLoginRelay.Outbound.Exchange

/-!
# Responses of sites

`parse_http_response` takes what follows the first empty line for the body. This is the payload of a response
whose content is sent as it is. Content in chunks comes out with the sizes of its chunks, a response after an
interim one comes out as the body of the interim one, and a header outside UTF-8 is refused.
-/

namespace WebLoginRelay
open Text Net.Http

/-- The response is one to accept. -/
structure Acceptable (r : Response) (maxBody : Nat) : Prop where
  status : ¬ (300 ≤ r.head.status ∧ r.head.status < 400)
  location : ¬ r.head.HasLocation
  payload : IsUtf8 r.payload ∧ r.payload.length ≤ maxBody
  limit : r.bytes.length ≤ maxBody + 1024

/-- The response is one to refuse. -/
def Refusable (r : Response) (maxBody : Nat) : Prop :=
  (300 ≤ r.head.status ∧ r.head.status < 400) ∨ r.head.HasLocation ∨ maxBody < r.payload.length

/-- The relay reads the response as HTTP/1.1 frames it. -/
structure ReadAsFramed (r : Response) (maxBody : Nat) : Prop where
  accepted : Acceptable r maxBody →
    parseHttpResponse r.bytes maxBody = .ok ⟨.ofNat r.head.status, r.payload⟩
  refused : Refusable r maxBody → ∃ e, parseHttpResponse r.bytes maxBody = .error e

/-- A response that is one to accept comes alone, without chunks and with a head in UTF-8. One to refuse may
come after an interim response if it is refused for what precedes or follows the first empty line. -/
def SentPlainly (r : Response) (maxBody : Nat) : Prop :=
  match r.interims with
  | [] => Acceptable r maxBody → ¬ r.framing.IsChunked ∧ IsUtf8 r.head.write
  | interim :: more => ¬ Acceptable r maxBody ∧
      (Refusable r maxBody → ¬ IsUtf8 r.bytes ∨ interim.HasLocation ∨
        maxBody < (more.flatMap ResponseHead.write ++ r.finalBytes).length)

variable {h : ResponseHead} {r : Response} {maxBody : Nat} {rest : Bytes}

/-- The status of a status line is read. -/
lemma readStatus_statusLine (wf : h.WellFormed) (utf8 : IsUtf8 h.statusLine) :
    readStatus h.statusLine = some (.ofNat h.status) := by
  obtain ⟨-, tail⟩ := (isUtf8_split (by decide)).mp utf8
  obtain ⟨-, reason, e⟩ := (isUtf8_split (by decide)).mp tail
  have text : h.statusLine =
      asBytes (String.ofList ("HTTP/1.1".toList ++ ' ' :: (Nat.toDigits 10 h.status ++ ' ' :: reason.toList))) := by
    have shape : String.ofList ("HTTP/1.1".toList ++ ' ' :: (Nat.toDigits 10 h.status ++ ' ' :: reason.toList)) =
        "HTTP/1.1" ++ (" " ++ (String.ofList (Nat.toDigits 10 h.status) ++ (" " ++ reason))) := by
      apply String.toList_inj.mp
      simp
    rw [shape, asBytes_append, asBytes_append, asBytes_append, asBytes_append, e]
    rfl
  have digits (c) (hc : c ∈ Nat.toDigits 10 h.status) : isWhitespace c = false := by
    have digit : c.isDigit := Nat.isDigit_of_mem_toDigits (by decide) (by decide) hc
    simp only [Char.isDigit, Bool.and_eq_true, decide_eq_true_eq, ge_iff_le, UInt32.le_iff_toNat_le] at digit
    have zero : ('0' : Char).val.toNat = 48 := rfl
    have nine : ('9' : Char).val.toNat = 57 := rfl
    have blanks : (([0x09, 0x0A, 0x0B, 0x0C, 0x0D, 0x20, 0x85, 0xA0, 0x1680, 0x2000, 0x2001, 0x2002, 0x2003,
        0x2004, 0x2005, 0x2006, 0x2007, 0x2008, 0x2009, 0x200A, 0x2028, 0x2029, 0x202F, 0x205F,
        0x3000] : List UInt32).all fun w => decide (w.toNat < 48 ∨ 57 < w.toNat)) = true := rfl
    rw [Bool.eq_false_iff]
    intro blank
    have outside := of_decide_eq_true (List.all_eq_true.mp blanks c.val (of_decide_eq_true blank))
    omega
  have version : ∀ c ∈ "HTTP/1.1".toList, isWhitespace c = false := by
    have all : ("HTTP/1.1".toList.all fun c => !isWhitespace c) = true := rfl
    intro c hc
    have plain := List.all_eq_true.mp all c hc
    simpa using plain
  have some_version : "HTTP/1.1".toList ≠ [] := by decide
  have second := splitWhitespace_second (r := reason) (a := ' ') (b := ' ') rfl rfl some_version
    Nat.toDigits_ne_nil version digits
  have status := wf.status
  rw [readStatus, text, fromUtf8_asBytes]
  simp only [Option.bind_eq_bind, Option.bind_some, second]
  exact parseU16_toDigits (by omega)

/-- The status line of a text is a text. -/
lemma isUtf8_statusLine (utf8 : IsUtf8 (h.write ++ rest)) : IsUtf8 h.statusLine := by
  have shape : h.write ++ rest =
      h.statusLine ++ 13 :: (10 :: (h.fields.flatMap (fun f => f.write ++ crlf) ++ crlf ++ rest)) := by
    simp [ResponseHead.write, crlf]
  rw [shape] at utf8
  exact ((isUtf8_split (by decide)).mp utf8).1

/-- The check of the lines finds the `Location` fields. -/
lemma location_lines (wf : h.WellFormed) : ((h.fields.map FieldLine.write).any fun line =>
    (asBytes "location:").isPrefixOf (toAsciiLowercase line)) ↔ h.HasLocation := by
  rw [List.any_map, List.any_eq_true]
  constructor
  · rintro ⟨f, hf, starts⟩
    exact ⟨f, hf, (location_line (wf.fields f hf)).mp starts⟩
  · rintro ⟨f, hf, named⟩
    exact ⟨f, hf, (location_line (wf.fields f hf)).mpr named⟩

/-- The check of the status is one of the number. -/
lemma redirection_iff (wf : h.WellFormed) :
    ((300 : UInt16) ≤ .ofNat h.status ∧ UInt16.ofNat h.status < 400) ↔ 300 ≤ h.status ∧ h.status < 400 := by
  have status := wf.status
  have value : (UInt16.ofNat h.status).toNat = h.status := by
    rw [UInt16.toNat_ofNat']
    omega
  rw [UInt16.le_iff_toNat_le, UInt16.lt_iff_toNat_lt, value]
  rfl

/-- What the relay reads after a head. -/
theorem parseHttpResponse_iff (wf : h.WellFormed) {response : SiteResponse} :
    parseHttpResponse (h.write ++ rest) maxBody = .ok response ↔
      IsUtf8 (h.write ++ rest) ∧ ¬ h.HasLocation ∧ ¬ (300 ≤ h.status ∧ h.status < 400) ∧ rest.length ≤ maxBody ∧
        response = ⟨.ofNat h.status, rest⟩ := by
  by_cases utf8 : IsUtf8 (h.write ++ rest)
  · obtain ⟨text, e⟩ := utf8
    have status := readStatus_statusLine wf (isUtf8_statusLine ⟨text, e⟩)
    have cut : splitOnce (asBytes "\r\n\r\n") (asBytes text) = some (h.header, rest) := e ▸ splitOnce_head wf rest
    have lines : split (asBytes "\r\n") h.header = h.statusLine :: h.fields.map FieldLine.write := split_head wf
    rw [← e, parseHttpResponse, fromUtf8_asBytes]
    simp only [orDomainFailed, ok_bind, cut, lines, List.head?_cons, status]
    split
    · rename_i redirected
      rw [List.tail_cons, location_lines wf, redirection_iff wf] at redirected
      refine ⟨nofun, ?_⟩
      rintro ⟨-, location, redirection, -⟩
      exact (redirected.elim location redirection).elim
    · rename_i direct
      rw [List.tail_cons, location_lines wf, redirection_iff wf, not_or] at direct
      split
      · rename_i long
        refine ⟨nofun, ?_⟩
        rintro ⟨-, -, -, short, -⟩
        omega
      · rename_i short
        constructor
        · intro e
          cases e
          exact ⟨⟨text, rfl⟩, direct.1, direct.2, by omega, rfl⟩
        · rintro ⟨-, -, -, -, rfl⟩
          rfl
  · have undecoded : fromUtf8 (h.write ++ rest) = none := by
      rw [isUtf8_iff, not_exists, ← Option.eq_none_iff_forall_ne_some] at utf8
      exact utf8
    rw [parseHttpResponse, undecoded]
    refine ⟨nofun, ?_⟩
    rintro ⟨read, -⟩
    exact absurd read utf8

/-- What is refused after a head. -/
lemma parseHttpResponse_error (wf : h.WellFormed) :
    (∃ e, parseHttpResponse (h.write ++ rest) maxBody = .error e) ↔
      ¬ IsUtf8 (h.write ++ rest) ∨ h.HasLocation ∨ (300 ≤ h.status ∧ h.status < 400) ∨ maxBody < rest.length := by
  have read {response : SiteResponse} := @parseHttpResponse_iff h maxBody rest wf response
  cases e : parseHttpResponse (h.write ++ rest) maxBody with
  | error error =>
    rw [e] at read
    refine ⟨fun _ => ?_, fun _ => ⟨error, rfl⟩⟩
    by_contra none
    simp only [not_or, not_not, Nat.not_lt] at none
    exact absurd (read.mpr ⟨none.1, none.2.1, none.2.2.1, none.2.2.2, rfl⟩) nofun
  | ok response =>
    rw [e] at read
    obtain ⟨utf8, location, redirection, short, -⟩ := read.mp rfl
    refine ⟨nofun, ?_⟩
    rintro (bad | located | redirected | long)
    · exact absurd utf8 bad
    · exact absurd located location
    · exact absurd redirected redirection
    · exact absurd long (Nat.not_lt.mpr short)

/-- A final response without an interim one is read as it is framed unless it is one to accept and has chunks
or a head that is not UTF-8. -/
lemma readAsFramed_alone (wf : r.WellFormed) (alone : r.interims = []) :
    ReadAsFramed r maxBody ↔ (Acceptable r maxBody → ¬ r.framing.IsChunked ∧ IsUtf8 r.head.write) := by
  have bytes : r.bytes = r.head.write ++ r.content := by
    rw [Response.bytes, alone]
    rfl
  have content_ge : r.payload.length ≤ r.content.length := by
    by_cases chunked : r.framing.IsChunked
    · exact (wf.framed.payload_lt chunked).le
    · exact (congrArg List.length (wf.framed.content_eq chunked)).ge
  constructor
  · intro reads acceptable
    have read := reads.accepted acceptable
    rw [bytes, parseHttpResponse_iff wf.head] at read
    obtain ⟨utf8, -, -, -, same⟩ := read
    have body : r.payload = r.content := congrArg SiteResponse.body same
    refine ⟨fun chunked => ?_, ?_⟩
    · have longer := wf.framed.payload_lt chunked
      rw [body] at longer
      exact absurd longer (Nat.lt_irrefl _)
    · have shape : r.head.write ++ r.content =
          (r.head.header ++ [13, 10, 13]) ++ 10 :: r.content := by
        simp [ResponseHead.write_eq, crlf]
      rw [shape] at utf8
      obtain ⟨start, -⟩ := (isUtf8_split (by decide)).mp utf8
      have head : r.head.write = (r.head.header ++ [13, 10, 13]) ++ [10] := by
        simp [ResponseHead.write_eq, crlf]
      rw [head]
      exact start.append ⟨"\n", rfl⟩
  · intro plain
    constructor
    · intro acceptable
      obtain ⟨chunks, utf8⟩ := plain acceptable
      have content := wf.framed.content_eq chunks
      rw [bytes, content, parseHttpResponse_iff wf.head]
      exact ⟨utf8.append acceptable.payload.1, acceptable.location, acceptable.status, acceptable.payload.2, rfl⟩
    · intro refusable
      rw [bytes, parseHttpResponse_error wf.head]
      obtain redirected | located | long := refusable
      · exact .inr (.inr (.inl redirected))
      · exact .inr (.inl located)
      · exact .inr (.inr (.inr (by omega)))

/-- After an interim response the relay reads that one. -/
lemma readAsFramed_interim (wf : r.WellFormed) {interim : ResponseHead} {more : List ResponseHead}
    (interims : r.interims = interim :: more) :
    ReadAsFramed r maxBody ↔ ¬ Acceptable r maxBody ∧ (Refusable r maxBody → ¬ IsUtf8 r.bytes ∨
      interim.HasLocation ∨ maxBody < (more.flatMap ResponseHead.write ++ r.finalBytes).length) := by
  have bytes : r.bytes = interim.write ++ (more.flatMap ResponseHead.write ++ r.finalBytes) := by
    rw [Response.bytes, interims, List.flatMap_cons, List.append_assoc]
  obtain ⟨head, low⟩ := wf.interims interim (interims ▸ List.mem_cons_self)
  have direct : ¬ (300 ≤ interim.status ∧ interim.status < 400) := by omega
  have refused : (∃ e, parseHttpResponse r.bytes maxBody = .error e) ↔ ¬ IsUtf8 r.bytes ∨ interim.HasLocation ∨
      maxBody < (more.flatMap ResponseHead.write ++ r.finalBytes).length := by
    rw [bytes, parseHttpResponse_error head]
    simp only [direct, false_or]
  constructor
  · intro reads
    refine ⟨fun acceptable => ?_, fun refusable => refused.mp (reads.refused refusable)⟩
    have read := reads.accepted acceptable
    rw [bytes, parseHttpResponse_iff head] at read
    obtain ⟨-, -, -, -, same⟩ := read
    have status : UInt16.ofNat r.head.status = .ofNat interim.status := congrArg SiteResponse.status same
    have final := wf.final
    have bound := wf.head.status
    have value := congrArg UInt16.toNat status
    rw [UInt16.toNat_ofNat', UInt16.toNat_ofNat'] at value
    omega
  · rintro ⟨none, refuses⟩
    exact ⟨fun acceptable => absurd acceptable none, fun refusable => refused.mpr (refuses refusable)⟩

/-- When the relay reads a response as HTTP/1.1 frames it. -/
theorem responses_read_iff (r : Response) (maxBody : Nat) (wf : r.WellFormed) :
    ReadAsFramed r maxBody ↔ SentPlainly r maxBody := by
  unfold SentPlainly
  split
  · rename_i alone
    exact readAsFramed_alone wf alone
  · rename_i interim more interims
    exact readAsFramed_interim wf interims

namespace Sample

/-- A response with a `Content-Length`. -/
def plainResponse : Response :=
  ⟨[], ⟨200, asBytes "OK", [⟨asBytes "Content-Length", [32], asBytes "2", []⟩]⟩, .length, asBytes "{}"⟩

/-- The same payload in a chunk. -/
def chunkedResponse : Response :=
  ⟨[], ⟨200, asBytes "OK", [⟨asBytes "Transfer-Encoding", [32], asBytes "chunked", []⟩]⟩,
    .chunked [⟨asBytes "2", [], asBytes "{}"⟩] (asBytes "0") [] [], asBytes "{}"⟩

/-- A head with one field. -/
lemma wellFormed_head {name value : String} (token : asBytes name ≠ [] ∧ (asBytes name).all isTchar)
    (bytes : (asBytes value).all isFieldByte) (first : (asBytes value).head?.any isOws = false)
    (last : (asBytes value).getLast?.any isOws = false) :
    (⟨200, asBytes "OK", [⟨asBytes name, [32], asBytes value, []⟩]⟩ : ResponseHead).WellFormed := by
  have reason : (asBytes "OK").all isFieldByte := rfl
  have before : ([32] : Bytes).all isOws := rfl
  refine ⟨⟨Nat.le_of_ble_eq_true rfl, Nat.le_of_ble_eq_true rfl⟩, List.all_eq_true.mp reason, ?_⟩
  rw [List.forall_mem_singleton]
  refine ⟨⟨token.1, List.all_eq_true.mp token.2⟩, List.all_eq_true.mp before,
    ⟨List.all_eq_true.mp bytes, fun b hb blank => ?_, fun b hb blank => ?_⟩, nofun⟩
  · rw [Option.mem_def.mp hb, Option.any_some] at first
    exact absurd blank (Bool.eq_false_iff.mp first)
  · rw [Option.mem_def.mp hb, Option.any_some] at last
    exact absurd blank (Bool.eq_false_iff.mp last)

/-- The plain response is well formed. -/
lemma plainResponse_wellFormed : plainResponse.WellFormed where
  interims := nofun
  head := wellFormed_head (by decide) (by decide) (by decide) (by decide)
  final := by decide
  bodiless := by decide
  framed := ⟨by decide, asBytes "2", by decide, 0, by decide⟩

/-- The response in chunks is well formed. -/
lemma chunkedResponse_wellFormed : chunkedResponse.WellFormed where
  interims := nofun
  head := wellFormed_head (by decide) (by decide) (by decide) (by decide)
  final := by decide
  bodiless := by decide
  framed := by
    refine ⟨by decide, by decide, by decide, ?_, ⟨by decide, [0], by decide, by decide⟩, ⟨nofun, nofun⟩, nofun⟩
    rw [List.forall_mem_singleton]
    exact ⟨by decide, ⟨by decide, [2], by decide, by decide⟩, ⟨nofun, nofun⟩⟩

end Sample

/-- The response with a `Content-Length` is read. -/
theorem responses_read_iff_plain : ReadAsFramed Sample.plainResponse maxMetadataBytes := by
  have head : IsUtf8 Sample.plainResponse.head.write := ⟨"HTTP/1.1 200 OK\r\nContent-Length: 2\r\n\r\n", by decide⟩
  exact (responses_read_iff _ _ Sample.plainResponse_wellFormed).mpr fun _ => ⟨id, head⟩

/-- The chunked response is not: its body comes out with the sizes of the chunks. -/
theorem chunks_are_kept : ¬ ∀ (r : Response) (maxBody : Nat), r.WellFormed → ReadAsFramed r maxBody := by
  intro claim
  have acceptable : Acceptable Sample.chunkedResponse maxMetadataBytes := by
    refine ⟨by decide, ?_, ⟨⟨"{}", rfl⟩, by decide⟩, by decide⟩
    rintro ⟨f, hf, named⟩
    rw [List.mem_singleton.mp hf] at named
    exact absurd named (by decide)
  have reads := claim Sample.chunkedResponse maxMetadataBytes Sample.chunkedResponse_wellFormed
  have plain := (readAsFramed_alone Sample.chunkedResponse_wellFormed rfl).mp reads acceptable
  exact plain.1 trivial

end WebLoginRelay
