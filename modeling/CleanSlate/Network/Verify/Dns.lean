import CleanSlate.Network.Dns

/-!
# What an accepted DNS response says

The sections of a message are described by what stands in its bytes: a name is a list of labels,
followed through compression pointers (`NameAt`), and a record has an owner (`RecordAt`). The parser
reads the records of the answer section in order and returns the first class-IN type-A record. It does
not look at the owner of that record, and it reads a question where the header announces none.
-/

namespace CleanSlate.Network.Dns

open Lib List

variable {s' : ReadState} {result : List UInt8 × Nat} {offset next : Nat}

/-! ## Names -/

/-- The name at an offset, and the offset behind it. -/
inductive NameAt (msg : List UInt8) : Nat → List (List UInt8) → Nat → Prop where
  | root {offset : Nat} (hbound : offset < msg.length) (hbyte : byteAt msg offset = 0) :
      NameAt msg offset [] (offset + 1)
  | label {offset next : Nat} {labels : List (List UInt8)} (hbyte : byteAt msg offset ≠ 0)
      (hkind : byteAt msg offset &&& 0xC0 = 0)
      (hbound : offset + 1 + (byteAt msg offset).toNat ≤ msg.length)
      (hrest : NameAt msg (offset + 1 + (byteAt msg offset).toNat) labels next) :
      NameAt msg offset ((msg.drop (offset + 1)).take (byteAt msg offset).toNat :: labels) next
  | pointer {offset next : Nat} {labels : List (List UInt8)} (hbound : offset + 1 < msg.length)
      (hkind : byteAt msg offset &&& 0xC0 = 0xC0)
      (htarget : NameAt msg (be16 msg offset &&& 0x3FFF).toNat labels next) :
      NameAt msg offset labels (offset + 2)

variable {next' : Nat} {msg : List UInt8}

theorem NameAt.unique {labels labels' : List (List UInt8)} (h : NameAt msg offset labels next)
    (h' : NameAt msg offset labels' next') : labels = labels' ∧ next = next' := by
  induction h generalizing labels' next' with
  | root hbn hby =>
    cases h' with
    | root => exact ⟨rfl, rfl⟩
    | label hby' => exact absurd hby hby'
    | pointer _ hkn => rw [hby] at hkn; exact absurd hkn (by decide)
  | label hby hkn _ _ ih =>
    cases h' with
    | root _ hby' => exact absurd hby' hby
    | label _ _ _ hrs =>
      obtain ⟨rfl, rfl⟩ := ih hrs
      exact ⟨rfl, rfl⟩
    | pointer _ hkn' => rw [hkn] at hkn'; exact absurd hkn' (by decide)
  | pointer _ hkn _ ih =>
    cases h' with
    | root _ hby => rw [hby] at hkn; exact absurd hkn (by decide)
    | label _ hkn' => rw [hkn'] at hkn; exact absurd hkn (by decide)
    | pointer _ _ htr => exact ⟨(ih htr).1, rfl⟩

/-- The labels after the first, each behind a dot. -/
def dottedTail (labels : List (List UInt8)) : List UInt8 := labels.flatMap (46 :: ·)

/-- A name as text. -/
def dotted : List (List UInt8) → List UInt8
  | [] => []
  | label :: labels => label ++ dottedTail labels

/-- The owner is the expected name, in any case and with or without the dot at the end. -/
def Names (labels : List (List UInt8)) (name : List UInt8) : Bool :=
  eqIgnoreAsciiCase (dotted labels) (stripDot name)

variable {currentPos cap : Nat} {s : ReadState}

/-- What one round of the loop does: it ends the name, follows a pointer, or takes a label. -/
theorem readNameStep_cases {x : ReadState ⊕ (List UInt8 × Nat)}
    (h : readNameStep msg currentPos cap s = .ok x) :
    s.offset < msg.length ∧
    ((byteAt msg s.offset = 0 ∧
      x = .inr (s.out, if s.followedPointer then s.endOffset else s.offset + 1)) ∨
    (byteAt msg s.offset &&& 0xC0 = 0xC0 ∧ s.offset + 1 < msg.length ∧
      s.hops + 1 ≤ dnsCompressionHopLimit ∧ x = .inl { s with
        offset := (be16 msg s.offset &&& 0x3FFF).toNat
        hops := s.hops + 1
        endOffset := if s.followedPointer then s.endOffset else s.offset + 2
        followedPointer := true }) ∨
    (byteAt msg s.offset ≠ 0 ∧ byteAt msg s.offset &&& 0xC0 = 0 ∧
      s.offset + 1 + (byteAt msg s.offset).toNat ≤ msg.length ∧ x = .inl { s with
        offset := s.offset + 1 + (byteAt msg s.offset).toNat
        out := (if s.first then s.out else s.out ++ [46]) ++
          (msg.drop (s.offset + 1)).take (byteAt msg s.offset).toNat
        first := false })) := by
  unfold readNameStep at h
  rw [ite_error_eq_ok] at h
  obtain ⟨hbn, h⟩ := h
  refine ⟨Nat.not_le.1 hbn, ?_⟩
  by_cases hzr : byteAt msg s.offset = 0
  · rw [if_pos hzr] at h
    exact .inl ⟨hzr, (Except.ok.inj h).symm⟩
  rw [if_neg hzr] at h
  by_cases hpn : byteAt msg s.offset &&& 0xC0 = 0xC0
  · rw [if_pos hpn, ite_error_eq_ok, ite_error_eq_ok, ite_error_eq_ok] at h
    obtain ⟨hsc, -, hhp, h⟩ := h
    exact .inr (.inl ⟨hpn, Nat.not_le.1 hsc, Nat.not_lt.1 hhp, (Except.ok.inj h).symm⟩)
  · rw [if_neg hpn, ite_error_eq_ok, ite_error_eq_ok, ite_error_eq_ok, ite_error_eq_ok] at h
    obtain ⟨hkn, hlb, -, -, h⟩ := h
    exact .inr (.inr ⟨hzr, Decidable.not_not.1 hkn, Nat.not_lt.1 hlb, (Except.ok.inj h).symm⟩)

theorem readNameStep_decreases (h : readNameStep msg currentPos cap s = .ok (.inl s')) :
    s'.size msg < s.size msg := by
  obtain ⟨hbn, ⟨-, hx⟩ | ⟨-, -, hhp, hx⟩ | ⟨-, -, -, hx⟩⟩ := readNameStep_cases h
  · cases hx
  · cases hx
    -- one hop less pays for starting over anywhere in the message
    have hlf : dnsCompressionHopLimit - s.hops = dnsCompressionHopLimit - (s.hops + 1) + 1 := by
      omega
    dsimp only [ReadState.size]
    rw [hlf, Nat.add_one_mul]
    omega
  · cases hx
    dsimp only [ReadState.size]
    omega

/-- The loop does not run out of fuel. -/
theorem readNameAt_eq (offset : Nat) {result : Except DnsError (List UInt8 × Nat)}
    (h : readNameAt msg offset currentPos cap = result) :
    loop (readNameStep msg currentPos cap)
      ((⟨offset, 0, [], true, offset, false⟩ : ReadState).size msg + 1)
      ⟨offset, 0, [], true, offset, false⟩ = some result := by
  obtain ⟨r, hr⟩ := loop_terminates (ReadState.size msg) (fun _ _ => readNameStep_decreases)
    (Nat.lt_succ_self ((⟨offset, 0, [], true, offset, false⟩ : ReadState).size msg))
  unfold readNameAt at h
  dsimp only at h
  rw [hr] at h ⊢
  exact congrArg some h

/-- The name read from a state on continues the text so far. -/
def Completes (msg : List UInt8) (s : ReadState) (result : List UInt8 × Nat) : Prop :=
  ∃ labels next, NameAt msg s.offset labels next ∧
    result.1 = s.out ++ (if s.first then dotted labels else dottedTail labels) ∧
    result.2 = if s.followedPointer then s.endOffset else next

theorem completes_leave (h : readNameStep msg currentPos cap s = .ok (.inr result)) :
    Completes msg s result := by
  obtain ⟨hbn, ⟨hzr, hx⟩ | ⟨-, -, -, hx⟩ | ⟨-, -, -, hx⟩⟩ := readNameStep_cases h
  · obtain rfl := Sum.inr.inj hx
    refine ⟨[], _, .root hbn hzr, ?_, rfl⟩
    simp [dotted, dottedTail]
  · cases hx
  · cases hx

theorem completes_next
    (h : readNameStep msg currentPos cap s = .ok (.inl s')) (hrs : Completes msg s' result) :
    Completes msg s result := by
  obtain ⟨labels, next, hnm, htx, hend⟩ := hrs
  obtain ⟨hbn, ⟨-, hx⟩ | ⟨hkn, hsc, -, hx⟩ | ⟨hzr, hkn, hlb, hx⟩⟩ := readNameStep_cases h
  · cases hx
  · obtain rfl := Sum.inl.inj hx
    refine ⟨labels, _, .pointer hsc hkn hnm, htx, ?_⟩
    simpa using hend
  · obtain rfl := Sum.inl.inj hx
    refine ⟨_, next, .label hzr hkn hlb hnm, ?_, hend⟩
    rw [htx]
    split <;> simp [dotted, dottedTail]

theorem readNameAt_ok {text : List UInt8}
    (h : readNameAt msg offset currentPos cap = .ok (text, next)) :
    ∃ labels, NameAt msg offset labels next ∧ text = dotted labels := by
  obtain ⟨labels, next', hnm, htx, hnx⟩ := loop_ok_induction (fun _ _ => completes_leave)
      (fun _ _ _ => completes_next) (readNameAt_eq offset h)
  obtain rfl : next = next' := hnx
  exact ⟨labels, hnm, htx⟩

theorem skipName_ok (h : skipName msg offset currentPos = .ok next) :
    ∃ labels, NameAt msg offset labels next := by
  obtain ⟨⟨text, next'⟩, hrd, hpr⟩ := bind_eq_ok.1 h
  obtain rfl := pure_eq_ok.1 hpr
  obtain ⟨labels, hnm, -⟩ := readNameAt_ok hrd
  exact ⟨labels, hnm⟩

/-! ## Records -/

structure Record where
  owner : List (List UInt8)
  rtype : UInt16
  rclass : UInt16
  ttl : UInt32
  rdata : List UInt8

variable {r : Record}

/-- A class-IN type-A record. -/
def Record.isAddress (r : Record) : Bool := r.rtype == rrTypeA && r.rclass == rrClassIn

/-- What an address record says. -/
def Record.answer (r : Record) : DnsAnswer :=
  ⟨r.ttl, .new (byteAt r.rdata 0) (byteAt r.rdata 1) (byteAt r.rdata 2) (byteAt r.rdata 3)⟩

/-- The record at an offset, and the offset behind it. -/
def RecordAt (msg : List UInt8) (offset : Nat) (r : Record) (next : Nat) : Prop :=
  ∃ nameEnd, NameAt msg offset r.owner nameEnd ∧ next ≤ msg.length ∧
    next = nameEnd + 10 + (be16 msg (nameEnd + 8)).toNat ∧ r.rtype = be16 msg nameEnd ∧
    r.rclass = be16 msg (nameEnd + 2) ∧ r.ttl = be32 msg (nameEnd + 4) ∧
    r.rdata = (msg.drop (nameEnd + 10)).take (be16 msg (nameEnd + 8)).toNat

theorem RecordAt.unique {r' : Record} (h : RecordAt msg offset r next)
    (h' : RecordAt msg offset r' next') : r = r' ∧ next = next' := by
  obtain ⟨nameEnd, hnm, -, hnx, hty, hcl, httl, hdt⟩ := h
  obtain ⟨nameEnd', hnm', -, hnx', hty', hcl', httl', hdt'⟩ := h'
  obtain ⟨how, rfl⟩ := hnm.unique hnm'
  cases r
  cases r'
  simp_all

/-- The records of a section, and the offset behind them. -/
inductive RecordsAt (msg : List UInt8) : Nat → List Record → Nat → Prop where
  | nil {offset : Nat} : RecordsAt msg offset [] offset
  | cons {offset mid next : Nat} {r : Record} {records : List Record}
      (hhead : RecordAt msg offset r mid) (htail : RecordsAt msg mid records next) :
      RecordsAt msg offset (r :: records) next

theorem RecordsAt.unique {records records' : List Record} (h : RecordsAt msg offset records next)
    (h' : RecordsAt msg offset records' next') (hln : records.length = records'.length) :
    records = records' := by
  induction h generalizing records' next' with
  | nil => exact (eq_nil_of_length_eq_zero hln.symm).symm
  | cons hhd _ ih =>
    cases h' with
    | nil => cases hln
    | cons hhd' htl' =>
      obtain ⟨rfl, rfl⟩ := hhd.unique hhd'
      rw [ih htl' (Nat.succ.inj hln)]

theorem skipRr_ok {rtype rclass : UInt16}
    (h : skipRr msg offset currentPos = .ok (next, rtype, rclass)) :
    ∃ r, RecordAt msg offset r next ∧ r.rtype = rtype ∧ r.rclass = rclass := by
  obtain ⟨nameEnd, hsk, h⟩ := bind_eq_ok.1 h
  obtain ⟨labels, hnm⟩ := skipName_ok hsk
  rw [ite_error_eq_ok] at h
  obtain ⟨-, h⟩ := h
  rw [ite_error_eq_ok] at h
  obtain ⟨hend, h⟩ := h
  cases h
  exact ⟨⟨labels, _, _, be32 msg (nameEnd + 4), _⟩,
    ⟨nameEnd, hnm, Nat.not_lt.1 hend, rfl, rfl, rfl, rfl, rfl⟩, rfl, rfl⟩

theorem byteAt_rdata {start n i : Nat} (hi : i < n) :
    byteAt ((msg.drop start).take n) i = byteAt msg (start + i) := by
  unfold byteAt
  rw [getD_eq_getElem?_getD, getElem?_take, if_pos hi, getElem?_drop, getD_eq_getElem?_getD]

theorem readAddress_ok {answer : DnsAnswer} (hrc : RecordAt msg offset r next)
    (h : readAddress msg offset = .ok answer) : answer = r.answer ∧ r.rdata.length = 4 := by
  obtain ⟨nameEnd, hsk, h⟩ := bind_eq_ok.1 h
  obtain ⟨labels, hnm⟩ := skipName_ok hsk
  rw [ite_error_eq_ok] at h
  obtain ⟨hlen, h⟩ := h
  rw [ite_error_eq_ok] at h
  obtain ⟨hbn, h⟩ := h
  obtain ⟨nameEnd', hnm', -, -, -, -, httl, hdt⟩ := hrc
  obtain ⟨-, rfl⟩ := hnm.unique hnm'
  rw [Decidable.not_not.1 hlen] at hdt
  cases h
  refine ⟨?_, ?_⟩
  · unfold Record.answer
    rw [httl, hdt, byteAt_rdata (by decide), byteAt_rdata (by decide), byteAt_rdata (by decide),
      byteAt_rdata (by decide)]
  · rw [hdt, length_take, length_drop]
    omega

theorem readAnswers_ok {count : Nat} {found found' : Option DnsAnswer}
    (h : readAnswers msg count offset found = .ok (next, found')) :
    ∃ records, RecordsAt msg offset records next ∧ records.length = count ∧
      (∀ r ∈ records, r.isAddress → r.rdata.length = 4) ∧
      found' = found.or ((records.find? Record.isAddress).map Record.answer) := by
  induction count generalizing offset found with
  | zero =>
    cases h
    exact ⟨[], .nil, rfl, fun r hr => (by cases hr), (Option.or_none ..).symm⟩
  | succ count ih =>
    obtain ⟨⟨rrEnd, rtype, rclass⟩, hsk, h⟩ := bind_eq_ok.1 h
    obtain ⟨r, hrc, rfl, rfl⟩ := skipRr_ok hsk
    dsimp only at h
    split at h
    · next had =>
      have had : r.isAddress := by simp [Record.isAddress, had]
      obtain ⟨answer, hrd, h⟩ := bind_eq_ok.1 h
      obtain ⟨rfl, hln⟩ := readAddress_ok hrc hrd
      obtain ⟨records, hrr, hcn, hall, rfl⟩ := ih h
      refine ⟨r :: records, .cons hrc hrr, congrArg (· + 1) hcn, ?_, ?_⟩
      · exact forall_mem_cons.2 ⟨fun _ => hln, hall⟩
      · rw [find?_cons_of_pos had]
        cases found <;> rfl
    · next had =>
      have had : r.isAddress = false := by
        simpa [Record.isAddress] using had
      obtain ⟨records, hrr, hcn, hall, rfl⟩ := ih h
      refine ⟨r :: records, .cons hrc hrr, congrArg (· + 1) hcn, ?_, ?_⟩
      · exact forall_mem_cons.2 ⟨fun htr => Bool.noConfusion (had.symm.trans htr), hall⟩
      · rw [find?_cons_of_neg (by rw [had]; decide)]

/-! ## Responses -/

variable {bytes : List UInt8} {expectedId : UInt16} {expectedName : List UInt8} {answer : DnsAnswer}

theorem checkHeader_ok {hdr : DnsHeader} (h : checkHeader hdr expectedId = .ok ()) :
    hdr.id = expectedId ∧ hdr.flags &&& flagQr ≠ 0 ∧ hdr.qdcount ≤ 1 := by
  unfold checkHeader at h
  simp only [ite_error_eq_ok] at h
  obtain ⟨hid, hqr, -, -, -, -, hcn, -⟩ := h
  exact ⟨Decidable.not_not.1 hid, hqr, UInt16.not_lt.1 hcn⟩

theorem checkQuestion_ok (h : checkQuestion bytes expectedName = .ok next) :
    ∃ qname qend, NameAt bytes dnsHeaderLen qname qend ∧ Names qname expectedName ∧
      next = qend + 4 := by
  obtain ⟨⟨text, qend⟩, hrd, h⟩ := bind_eq_ok.1 h
  obtain ⟨qname, hnm, rfl⟩ := readNameAt_ok hrd
  simp only [ite_error_eq_ok] at h
  obtain ⟨-, -, heq, h⟩ := h
  refine ⟨qname, qend, hnm, ?_, (Except.ok.inj h).symm⟩
  simpa [Names] using heq

/-- The message answers the question for the name with the address: it carries the id, the response
bit and a question for the name, and the first address record the name owns in the answer section is
the one returned. -/
structure AnswersFor (bytes : List UInt8) (expectedId : UInt16) (expectedName : List UInt8)
    (answer : DnsAnswer) : Prop where
  id : be16 bytes 0 = expectedId
  response : be16 bytes 2 &&& flagQr ≠ 0
  question : be16 bytes 4 = 1
  found : ∃ qname qend records next, NameAt bytes dnsHeaderLen qname qend ∧
    Names qname expectedName ∧ RecordsAt bytes (qend + 4) records next ∧
    records.length = (be16 bytes 6).toNat ∧
    (records.find? fun r => r.isAddress && Names r.owner expectedName).map Record.answer = some answer

/-- What the checks of the parser leave of an accepted response. -/
theorem parseResponse_accepts (h : parseResponse bytes expectedId expectedName = .ok answer) :
    be16 bytes 0 = expectedId ∧ be16 bytes 2 &&& flagQr ≠ 0 ∧
    ∃ qname qend records next, NameAt bytes dnsHeaderLen qname qend ∧
      Names qname expectedName ∧ RecordsAt bytes (qend + 4) records next ∧
      records.length = (be16 bytes 6).toNat ∧
      (records.find? Record.isAddress).map Record.answer = some answer := by
  obtain ⟨hdr, hpr, h⟩ := bind_eq_ok.1 h
  obtain ⟨⟨⟩, hch, h⟩ := bind_eq_ok.1 h
  obtain ⟨offset, hqs, h⟩ := bind_eq_ok.1 h
  obtain ⟨⟨next, found⟩, han, h⟩ := bind_eq_ok.1 h
  obtain ⟨_, _, h⟩ := bind_eq_ok.1 h
  obtain ⟨_, _, hrt⟩ := bind_eq_ok.1 h
  obtain ⟨hid, hqr, -⟩ := checkHeader_ok hch
  obtain ⟨qname, qend, hnm, hns, rfl⟩ := checkQuestion_ok hqs
  obtain ⟨records, hrc, hcn, -, rfl⟩ := readAnswers_ok han
  unfold DnsHeader.parse at hpr
  rw [ite_error_eq_ok] at hpr
  obtain ⟨-, hpr⟩ := hpr
  cases hpr
  exact ⟨hid, hqr, qname, qend, records, next, hnm, hns, hrc, hcn, okOr_eq_ok.1 hrt⟩

/-- The answer of an accepted response is for the name exactly when the header announces the question
and the first address record agrees with the first address record of the name. -/
theorem parseResponse_answers_iff (h : parseResponse bytes expectedId expectedName = .ok answer) :
    ∃ qname qend records next, NameAt bytes dnsHeaderLen qname qend ∧
      RecordsAt bytes (qend + 4) records next ∧ records.length = (be16 bytes 6).toNat ∧
      (AnswersFor bytes expectedId expectedName answer ↔
        be16 bytes 4 = 1 ∧
        (records.find? fun r => r.isAddress && Names r.owner expectedName).map Record.answer =
          (records.find? Record.isAddress).map Record.answer) := by
  obtain ⟨hid, hqr, qname, qend, records, next, hnm, hns, hrc, hcn, hfn⟩ := parseResponse_accepts h
  refine ⟨qname, qend, records, next, hnm, hrc, hcn, ?_⟩
  rw [hfn]
  constructor
  · intro han
    obtain ⟨qname', qend', records', next', hnm', -, hrc', hcn', hfn'⟩ := han.found
    obtain ⟨-, rfl⟩ := hnm.unique hnm'
    obtain rfl := hrc.unique hrc' (hcn.trans hcn'.symm)
    exact ⟨han.question, hfn'⟩
  · rintro ⟨hqs, how⟩
    exact ⟨hid, hqr, hqs, qname, qend, records, next, hnm, hns, hrc, hcn, how⟩

/-- A response with one question for `a` and one address record, owned by the label `owner`. -/
def oneAnswer (owner : UInt8) : List UInt8 :=
  [0, 7, 0x80, 0, 0, 1, 0, 1, 0, 0, 0, 0, 1, 97, 0, 0, 1, 0, 1,
    1, owner, 0, 0, 1, 0, 1, 0, 0, 0, 60, 0, 4, 10, 0, 0, 1]

theorem parseResponse_answers_own_record :
    parseResponse (oneAnswer 97) 7 [97] = .ok ⟨60, .new 10 0 0 1⟩ ∧
    ∃ qname qend records next, NameAt (oneAnswer 97) dnsHeaderLen qname qend ∧
      RecordsAt (oneAnswer 97) (qend + 4) records next ∧
      records.length = (be16 (oneAnswer 97) 6).toNat ∧
      (AnswersFor (oneAnswer 97) 7 [97] ⟨60, .new 10 0 0 1⟩ ↔
        be16 (oneAnswer 97) 4 = 1 ∧
        (records.find? fun r => r.isAddress && Names r.owner [97]).map Record.answer =
          (records.find? Record.isAddress).map Record.answer) :=
  have h : parseResponse (oneAnswer 97) 7 [97] = .ok ⟨60, .new 10 0 0 1⟩ := by rfl
  ⟨h, parseResponse_answers_iff h⟩

/-- The address of another name is returned. -/
theorem parseResponse_returns_foreign_record :
    parseResponse (oneAnswer 98) 7 [97] = .ok ⟨60, .new 10 0 0 1⟩ ∧
    ¬ AnswersFor (oneAnswer 98) 7 [97] ⟨60, .new 10 0 0 1⟩ := by
  refine ⟨by rfl, fun han => ?_⟩
  obtain ⟨qname, qend, records, next, hnm, -, hrc, hcn, hfn⟩ := han.found
  have hqs : NameAt (oneAnswer 98) 12 [[97]] 15 :=
    .label (by decide) (by decide) (by decide) (.root (by decide) (by decide))
  have how : NameAt (oneAnswer 98) 19 [[98]] 22 :=
    .label (by decide) (by decide) (by decide) (.root (by decide) (by decide))
  have hrr : RecordAt (oneAnswer 98) 19 ⟨[[98]], 1, 1, 60, [10, 0, 0, 1]⟩ 36 :=
    ⟨22, how, by decide, by decide, by decide, by decide, by decide, by decide⟩
  obtain ⟨-, rfl⟩ := hqs.unique hnm
  obtain rfl := (RecordsAt.cons hrr .nil).unique hrc hcn.symm
  exact absurd hfn (by decide)

end CleanSlate.Network.Dns
