import Mathlib

/-! `loopback_http_ok` over a connection that takes the request and hands over the response in pieces of any
size. A list of answers that is too short means that the call still waits. -/
namespace UniversityHelper.DesktopProbe

def ascii (text : String) : List UInt8 := text.toList.map fun c => UInt8.ofNat c.toNat

def okPrefixes : List (List UInt8) := [ascii "HTTP/1.1 200 ", ascii "HTTP/1.0 200 "]

def httpResponseIsOk (response : List UInt8) : Bool := okPrefixes.any fun start => start.isPrefixOf response

def httpResponseMayBeOk (response : List UInt8) : Bool :=
  okPrefixes.any fun start => start.isPrefixOf response || response.isPrefixOf start

/-- One turn of the write loop; `none` is an error of `write`. -/
structure Write where
  now : ℕ
  timeoutSet : Bool
  written : Option ℕ

/-- The answer of the call, and the bytes that the writer took. -/
def writeAllBeforeDeadline (deadline : ℕ) : List Write → List UInt8 → Option Bool × List UInt8
  | [], _ => (none, [])
  | w :: _, [] => (some (w.now < deadline), [])
  | w :: writes, byte :: bytes =>
    if deadline ≤ w.now || !w.timeoutSet then (some false, [])
    else match w.written with
      | none => (some false, [])
      | some 0 => (some false, [])
      | some (count + 1) =>
        let (answer, taken) := writeAllBeforeDeadline deadline writes (bytes.drop count)
        (answer, byte :: bytes.take count ++ taken)

/-- One turn of the read loop; `none` is an error of `read`, an empty chunk the end of the stream. -/
structure Read where
  now : ℕ
  timeoutSet : Bool
  chunk : Option (List UInt8)
  done : ℕ

def responseLength : ℕ := 32

def readStatus (deadline : ℕ) : List Read → List UInt8 → Option Bool
  | [], received => if received.length < responseLength then none else some false
  | r :: reads, received =>
    if received.length < responseLength then
      if deadline ≤ r.now || !r.timeoutSet then some false
      else match r.chunk with
        | none => some false
        | some chunk =>
          let count := min chunk.length (responseLength - received.length)
          let status := received ++ chunk.take count
          if count = 0 then some false
          else if httpResponseIsOk status then some (r.done < deadline)
          else if !httpResponseMayBeOk status then some false
          else readStatus deadline reads status
    else some false

structure Connection where
  now : ℕ
  connected : Bool
  writes : List Write
  reads : List Read

def request (path : String) : List UInt8 :=
  ascii ("GET " ++ path ++ " HTTP/1.1\r\nHost: 127.0.0.1\r\nConnection: close\r\n\r\n")

def loopbackHttpOk (deadline : ℕ) (path : String) (connection : Connection) : Option Bool × List UInt8 :=
  if deadline ≤ connection.now || !connection.connected then (some false, [])
  else
    let (answer, taken) := writeAllBeforeDeadline deadline connection.writes (request path)
    (answer.bind fun written => if written then readStatus deadline connection.reads [] else some false, taken)

/-! ### Writing -/

variable {deadline : ℕ} {writes : List Write} {reads : List Read} {bytes received rest : List UInt8}

theorem written_of_true (h : (writeAllBeforeDeadline deadline writes bytes).1 = some true) :
    (writeAllBeforeDeadline deadline writes bytes).2 = bytes := by
  induction writes generalizing bytes with
  | nil => cases h
  | cons w writes ih =>
    cases bytes with
    | nil => rfl
    | cons byte bytes =>
      simp only [writeAllBeforeDeadline] at h ⊢
      split_ifs at h with hlate
      · cases h
      · rw [if_neg hlate]
        split at h
        · cases h
        · cases h
        · rename_i count _
          simp only [List.cons_append, ih h, List.take_append_drop]

/-- Every turn is in time, and takes something. -/
def WritesTimely (deadline : ℕ) (writes : List Write) : Prop :=
  ∀ w ∈ writes, w.now < deadline ∧ w.timeoutSet = true ∧ ∃ count, w.written = some (count + 1)

theorem written_of_timely (h : WritesTimely deadline writes) (enough : bytes.length < writes.length) :
    writeAllBeforeDeadline deadline writes bytes = (some true, bytes) := by
  induction writes generalizing bytes with
  | nil => cases enough
  | cons w writes ih =>
    obtain ⟨hnow, hset, count, hcount⟩ := h w List.mem_cons_self
    cases bytes with
    | nil => simp [writeAllBeforeDeadline, hnow]
    | cons byte bytes =>
      have hrest : writeAllBeforeDeadline deadline writes (bytes.drop count) = (some true, bytes.drop count) := by
        refine ih (fun v hv => h v (List.mem_cons_of_mem _ hv)) ?_
        rw [List.length_drop]
        simp only [List.length_cons] at enough
        omega
      simp [writeAllBeforeDeadline, hnow, hset, hcount, hrest]

/-! ### Reading -/

theorem isOk_iff : httpResponseIsOk bytes = true ↔ ∃ start ∈ okPrefixes, start <+: bytes := by
  simp [httpResponseIsOk]

theorem mayBeOk_iff :
    httpResponseMayBeOk bytes = true ↔ ∃ start ∈ okPrefixes, start <+: bytes ∨ bytes <+: start := by
  simp [httpResponseMayBeOk]

theorem isOk_append (h : httpResponseIsOk bytes = true) (rest : List UInt8) :
    httpResponseIsOk (bytes ++ rest) = true := by
  obtain ⟨start, hstart, hbytes⟩ := isOk_iff.mp h
  exact isOk_iff.mpr ⟨start, hstart, hbytes.trans (List.prefix_append _ _)⟩

/-- A response that cannot become a 200 never does. -/
theorem mayBeOk_of_append (h : httpResponseIsOk (bytes ++ rest) = true) : httpResponseMayBeOk bytes = true := by
  obtain ⟨start, hstart, hall⟩ := isOk_iff.mp h
  exact mayBeOk_iff.mpr ⟨start, hstart, List.prefix_or_prefix_of_prefix hall (List.prefix_append _ _)⟩

/-- The status line is decided by its first thirteen bytes. -/
theorem length_of_open (hopen : httpResponseMayBeOk bytes = true) (hnot : httpResponseIsOk bytes = false) :
    bytes.length < 13 := by
  obtain ⟨start, hstart, hcompare⟩ := mayBeOk_iff.mp hopen
  have hlength : start.length = 13 := (by decide : ∀ start ∈ okPrefixes, start.length = 13) start hstart
  rcases hcompare with hdone | hpart
  · rw [isOk_iff.mpr ⟨start, hstart, hdone⟩] at hnot
    cases hnot
  · refine lt_of_le_of_ne (hlength ▸ hpart.length_le) fun hall => ?_
    have hequal := hpart.eq_of_length (hall.trans hlength.symm)
    rw [isOk_iff.mpr ⟨start, hstart, hequal ▸ List.prefix_refl _⟩] at hnot
    cases hnot

/-- What the stream hands over before it ends or fails. -/
def delivered : List Read → List UInt8
  | [] => []
  | r :: reads =>
    match r.chunk with
    | none => []
    | some chunk => if chunk = [] then [] else chunk ++ delivered reads

/-- The stream ends or fails within the answers. -/
def ends : List Read → Bool
  | [] => false
  | r :: reads =>
    match r.chunk with
    | none => true
    | some chunk => chunk = [] || ends reads

def ReadsTimely (deadline : ℕ) (reads : List Read) : Prop :=
  ∀ r ∈ reads, r.now < deadline ∧ r.timeoutSet = true ∧ r.done < deadline

/-- The status after a piece has been put into what is left of the buffer. -/
def filled (received chunk : List UInt8) : List UInt8 :=
  received ++ chunk.take (min chunk.length (responseLength - received.length))

theorem append_eq_filled (received chunk rest : List UInt8) :
    received ++ (chunk ++ rest) = filled received chunk ++
      (chunk.drop (min chunk.length (responseLength - received.length)) ++ rest) := by
  rw [filled, List.append_assoc, ← List.append_assoc (chunk.take _), List.take_append_drop]

/-- A piece that leaves the status undecided was not cut by the buffer. -/
theorem filled_eq_append {chunk : List UInt8} (hopen : httpResponseMayBeOk (filled received chunk) = true)
    (hnot : httpResponseIsOk (filled received chunk) = false) : filled received chunk = received ++ chunk := by
  have hlength := length_of_open hopen hnot
  rw [filled, List.length_append, List.length_take, responseLength] at hlength
  rw [filled, responseLength, List.take_of_length_le (by omega)]

theorem readStatus_chunk {r : Read} {chunk : List UInt8} (room : received.length < 13) (hchunk : r.chunk = some chunk)
    (hne : chunk ≠ []) (hintime : (decide (deadline ≤ r.now) || !r.timeoutSet) = false) :
    readStatus deadline (r :: reads) received =
      if httpResponseIsOk (filled received chunk) then some (decide (r.done < deadline))
      else if !httpResponseMayBeOk (filled received chunk) then some false
      else readStatus deadline reads (filled received chunk) := by
  have hcount : min chunk.length (responseLength - received.length) ≠ 0 := by
    have hlength := List.length_pos_iff.mpr hne
    rw [responseLength]
    omega
  rw [readStatus, if_pos (room.trans (by decide)), hintime, if_neg Bool.false_ne_true, hchunk]
  simp only [if_neg hcount]
  rfl

/-- The read that completes the status line of a response of which `received` is there already. -/
structure Completes (received : List UInt8) (earlier : List Read) (r : Read) : Prop where
  notYet : httpResponseIsOk (received ++ delivered earlier) = false
  complete : httpResponseIsOk (received ++ delivered (earlier ++ [r])) = true

theorem delivered_cons {r : Read} {chunk : List UInt8} (hchunk : r.chunk = some chunk) (hne : chunk ≠ []) :
    delivered (r :: reads) = chunk ++ delivered reads := by
  simp only [delivered, hchunk, if_neg hne]

theorem isOk_of_status (hopen : httpResponseMayBeOk received = true) (hnot : httpResponseIsOk received = false)
    (h : readStatus deadline reads received = some true) :
    httpResponseIsOk (received ++ delivered reads) = true ∧ ∃ earlier r later,
      reads = earlier ++ r :: later ∧ Completes received earlier r ∧ r.done < deadline := by
  induction reads generalizing received with
  | nil =>
    simp only [readStatus] at h
    split_ifs at h
    cases h
  | cons r reads ih =>
    have hroom := length_of_open hopen hnot
    cases hintime : (decide (deadline ≤ r.now) || !r.timeoutSet) with
    | true =>
      rw [readStatus, if_pos (hroom.trans (by decide)), hintime] at h
      cases h
    | false =>
      cases hchunk : r.chunk with
      | none =>
        rw [readStatus, if_pos (hroom.trans (by decide)), hintime, hchunk] at h
        cases h
      | some chunk =>
        by_cases hne : chunk = []
        · subst hne
          rw [readStatus, if_pos (hroom.trans (by decide)), hintime, hchunk] at h
          cases h
        · rw [readStatus_chunk hroom hchunk hne hintime] at h
          split_ifs at h with hok hmay
          · have hcomplete : ∀ later, httpResponseIsOk (received ++ delivered (r :: later)) = true := by
              intro later
              rw [delivered_cons hchunk hne, append_eq_filled]
              exact isOk_append hok _
            refine ⟨hcomplete reads, [], r, reads, rfl, ⟨?_, hcomplete []⟩, by simpa using h⟩
            rw [delivered, List.append_nil, hnot]
          · cases h
          · have hopen' : httpResponseMayBeOk (filled received chunk) = true := by simpa using hmay
            have hnot' : httpResponseIsOk (filled received chunk) = false := by simpa using hok
            have hmove : ∀ later, filled received chunk ++ delivered later =
                received ++ delivered (r :: later) := by
              intro later
              rw [filled_eq_append hopen' hnot', List.append_assoc, delivered_cons hchunk hne]
            obtain ⟨hall, earlier, last, later, rfl, ⟨hnotYet, hcomplete⟩, hdone⟩ := ih hopen' hnot' h
            rw [hmove] at hall hnotYet hcomplete
            exact ⟨hall, r :: earlier, last, later, rfl, ⟨hnotYet, hcomplete⟩, hdone⟩

theorem status_of_timely (timely : ReadsTimely deadline reads) (hopen : httpResponseMayBeOk received = true)
    (hnot : httpResponseIsOk received = false)
    (enough : ends reads = true ∨ 13 ≤ (received ++ delivered reads).length) :
    readStatus deadline reads received = some (httpResponseIsOk (received ++ delivered reads)) := by
  induction reads generalizing received with
  | nil =>
    have hroom := length_of_open hopen hnot
    rcases enough with hends | hlength
    · cases hends
    · rw [delivered, List.append_nil] at hlength
      omega
  | cons r reads ih =>
    have hroom := length_of_open hopen hnot
    obtain ⟨hnow, hset, hdone⟩ := timely r List.mem_cons_self
    have hintime : (decide (deadline ≤ r.now) || !r.timeoutSet) = false := by simp [hnow, hset]
    cases hchunk : r.chunk with
    | none =>
      rw [readStatus, if_pos (hroom.trans (by decide)), hintime, hchunk]
      simp [delivered, hchunk, hnot]
    | some chunk =>
      by_cases hne : chunk = []
      · subst hne
        rw [readStatus, if_pos (hroom.trans (by decide)), hintime, hchunk]
        simp [delivered, hchunk, hnot]
      · have hdelivered : delivered (r :: reads) = chunk ++ delivered reads := delivered_cons hchunk hne
        rw [readStatus_chunk hroom hchunk hne hintime, hdelivered]
        split_ifs with hok hmay
        · rw [append_eq_filled, isOk_append hok, decide_eq_true hdone]
        · have hnever : httpResponseIsOk (received ++ (chunk ++ delivered reads)) = false := by
            by_contra hall
            rw [append_eq_filled, Bool.not_eq_false] at hall
            rw [mayBeOk_of_append hall] at hmay
            cases hmay
          rw [hnever]
        · have hopen' : httpResponseMayBeOk (filled received chunk) = true := by simpa using hmay
          have hnot' : httpResponseIsOk (filled received chunk) = false := by simpa using hok
          have hwhole := filled_eq_append hopen' hnot'
          rw [hwhole] at hopen' hnot' ⊢
          rw [← List.append_assoc]
          refine ih (fun v hv => timely v (List.mem_cons_of_mem _ hv)) hopen' hnot' ?_
          rw [hdelivered, ← List.append_assoc] at enough
          refine enough.imp (fun hends => ?_) id
          simpa [ends, hchunk, hne] using hends

/-! ### The probe -/

/-- Nothing is late, nothing fails, and the server says enough or closes. -/
structure Connection.Timely (deadline : ℕ) (path : String) (connection : Connection) : Prop where
  now : connection.now < deadline
  connected : connection.connected = true
  writes : WritesTimely deadline connection.writes
  allWrites : (request path).length < connection.writes.length
  reads : ReadsTimely deadline connection.reads
  allReads : ends connection.reads = true ∨ 13 ≤ (delivered connection.reads).length

/-- A route counts as served only by a whole request and a 200 status line whose last byte was there before the
deadline; and where nothing is late, exactly by a 200 status line, however the request and the response are cut
into pieces. -/
theorem loopback_probe (deadline : ℕ) (path : String) (connection : Connection) :
    ((loopbackHttpOk deadline path connection).1 = some true →
      (loopbackHttpOk deadline path connection).2 = request path ∧
      httpResponseIsOk (delivered connection.reads) = true ∧ ∃ earlier r later,
        connection.reads = earlier ++ r :: later ∧ Completes [] earlier r ∧ r.done < deadline) ∧
    (connection.Timely deadline path → loopbackHttpOk deadline path connection =
      (some (httpResponseIsOk (delivered connection.reads)), request path)) := by
  have hopen : httpResponseMayBeOk [] = true := by decide
  have hnot : httpResponseIsOk [] = false := by decide
  refine ⟨fun h => ?_, fun timely => ?_⟩
  · simp only [loopbackHttpOk] at h ⊢
    split_ifs at h with hlate
    · cases h
    · rw [if_neg hlate]
      obtain ⟨written, hwritten, hanswer⟩ := Option.bind_eq_some_iff.mp h
      cases written with
      | false => cases hanswer
      | true => exact ⟨written_of_true hwritten, isOk_of_status hopen hnot hanswer⟩
  · have hintime : (decide (deadline ≤ connection.now) || !connection.connected) = false := by
      simp [timely.now, timely.connected]
    have hstatus := status_of_timely timely.reads hopen hnot timely.allReads
    rw [List.nil_append] at hstatus
    simp [loopbackHttpOk, hintime, written_of_timely timely.writes timely.allWrites, hstatus]

/-- The request for `/` is taken in two pieces, the status line comes in two, and the deadline is at 500. -/
def cutInPieces : Connection where
  now := 0
  connected := true
  writes := ⟨0, true, some 10⟩ :: List.replicate 60 ⟨1, true, some 60⟩
  reads := [⟨2, true, some (ascii "HTTP/1.1 "), 3⟩, ⟨30, true, some (ascii "200 OK\r\n"), 31⟩]

theorem loopback_probe_cutInPieces : cutInPieces.Timely 500 "/" ∧
    loopbackHttpOk 500 "/" cutInPieces = (some true, request "/") ∧ ∃ earlier r later,
      cutInPieces.reads = earlier ++ r :: later ∧ Completes [] earlier r ∧ r.done < 500 := by
  have htimely : cutInPieces.Timely 500 "/" := by
    refine ⟨by decide, rfl, ?_, by decide, ?_, .inr (by decide)⟩
    · intro w hw
      rcases List.mem_cons.mp hw with rfl | hlater
      · exact ⟨by decide, rfl, 9, rfl⟩
      · rw [List.eq_of_mem_replicate hlater]
        exact ⟨by decide, rfl, 59, rfl⟩
    · intro r hr
      fin_cases hr <;> exact ⟨by decide, rfl, by decide⟩
  obtain ⟨honly, hexactly⟩ := loopback_probe 500 "/" cutInPieces
  have hok : httpResponseIsOk (delivered cutInPieces.reads) = true := by decide
  have hserved := hexactly htimely
  rw [hok] at hserved
  exact ⟨htimely, hserved, (honly (by rw [hserved])).2.2⟩

end UniversityHelper.DesktopProbe
