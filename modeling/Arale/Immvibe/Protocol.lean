import Arale.At.Tok
import Arale.Lib.CString

/-!
# From a client of the vibrator to the work queue

A client connects to the daemon and sends one request: `+` with a duration in
decimal and `$`, or `-0$`. The daemon reads what there is each time the socket
is ready. `process_client` counts the bytes it got and hands its buffer to
`process_buf` as soon as there are three, which puts a message into the queue of
the worker thread.

The socket cuts the request into reads of any sizes, and in between a read may
find nothing: then `process_client` returns and is called again for the next
event. `Delivery` are these reads, and a `Conn` goes through them one at a time,
through the early call of the accept loop and the calls of the event loop.

> `request_enqueued`: the message of the request is put into the queue, once,
> and nothing else, whatever the stack holds, exactly if the request arrives in
> one piece.

Every `read` writes to the beginning of the buffer, three bytes are taken for a
whole request, and the count starts over with each call: `request_cut` shows a
request that is lost, one with another duration, and one that becomes a stop.

On the other side `send_internal` passes the beginning of its buffer to every
`send`. `sent_intact` says when the bytes taken are the message all the same.
-/

namespace Arale.Immvibe

open List
open At (bytes isspace isdigit decimal)

abbrev Bytes := List UInt8

/-- What is put into the work queue: `MSG_VIBRATE` with its duration, or
`MSG_STOP`. -/
inductive Msg where
  | vibrate (duration : Int32)
  | stop
  deriving DecidableEq, Repr

/-! ## The client -/

/-- `%d` -/
def printInt (n : Int) : Bytes := (if n < 0 then [45] else []) ++ Lib.digits n.natAbs

/-- `snprintf` into a buffer of zeros: the buffer, and the length of the text. -/
def snprintf (size : Nat) (text : Bytes) : Bytes × Nat :=
  (text.take (size - 1) ++ List.replicate (size - (text.take (size - 1)).length) 0, text.length)

/-- What `send` does: it takes some of the bytes, or fails. -/
inductive Sent where
  | count (n : Nat)
  | failed
  deriving DecidableEq, Repr

/-- How far `send_internal` is: it returned 0 or an error, or waits in `send`. -/
inductive SendEnd where
  | ok
  | failed
  | waiting
  deriving DecidableEq, Repr

/-- `send_internal`, with the bytes that were taken. -/
def sendInternal (buf : Bytes) : Nat → List Sent → Bytes × SendEnd
  | 0, _ => ([], .ok)
  | _ + 1, [] => ([], .waiting)
  | _ + 1, .failed :: _ => ([], .failed)
  | remaining + 1, .count n :: sends =>
    -- `buf` stays where it is
    let rest := sendInternal buf (remaining + 1 - n) sends
    ((buf.take (remaining + 1)).take n ++ rest.1, rest.2)

/-- The text of a request. -/
def text : Msg → Bytes
  | .vibrate duration => 43 :: (printInt duration.toInt ++ [36])
  | .stop => [45, 48, 36]

/-- `immvibe_conn_vibrate` -/
def immvibeConnVibrate (duration : Int32) (sends : List Sent) : Bytes × SendEnd :=
  let (buf, len) := snprintf 16 (text (.vibrate duration))
  sendInternal buf len sends

/-- `immvibe_conn_stop` -/
def immvibeConnStop (sends : List Sent) : Bytes × SendEnd := sendInternal (text .stop) 3 sends

/-- The call of the client for a message. -/
def request : Msg → List Sent → Bytes × SendEnd
  | .vibrate duration => immvibeConnVibrate duration
  | .stop => immvibeConnStop

/-! ## The daemon -/

/-- The result of `sscanf` with one conversion. -/
inductive Scanned where
  | eof
  | noMatch
  | value (n : Int32)
  deriving DecidableEq, Repr

/-- `sscanf(.., "%d$", ..)`: the longest decimal prefix; whether a `$` follows
does not show in the result. -/
def sscanfInt (s : Bytes) : Scanned :=
  let cur := s.dropWhile isspace
  let negative := cur.head? == some 45
  let digits := (if negative || cur.head? == some 43 then cur.drop 1 else cur).takeWhile isdigit
  if cur = [] then .eof
  else if digits = [] then .noMatch
  else .value (Int32.ofInt (if negative then -decimal digits else decimal digits))

/-- The string at the beginning of some memory. -/
def cString (memory : Bytes) : Bytes := memory.takeWhile (· != 0)

/-- `process_buf`; `duration` is what the variable holds before `sscanf`. -/
def processBuf (duration : Int32) (buf : Bytes) : Option Msg :=
  if buf.head? = some 43 then
    match sscanfInt (cString (buf.drop 1)) with
    | .noMatch => none
    -- `EOF` is not 0
    | .eof => some (.vibrate duration)
    | .value n => some (.vibrate n)
  else if buf.head? = some 45 then some .stop
  else none

/-- What `read` returns: some bytes, `EAGAIN`, another error, or 0. -/
inductive Read where
  | data (bytes : Bytes)
  | eagain
  | failed
  | eof
  deriving DecidableEq, Repr

/-- What a call finds on the stack: the memory from `buf` on, and the variable
of `process_buf`. -/
structure Stack where
  memory : Bytes
  duration : Int32
  deriving DecidableEq, Repr

/-- A call of `process_client`. -/
structure Call where
  stack : Stack
  totalSize : Nat
  deriving DecidableEq, Repr

/-- What one turn of the loop of `process_client` does: it goes on, or returns
`done` with what was put into the queue. -/
inductive Turn where
  | again (call : Call)
  | ret (done : Bool) (msg : Option Msg)
  deriving DecidableEq, Repr

/-- The loop of `process_client`, for one `read`. -/
def processRead (call : Call) : Read → Turn
  | .eagain => .ret false none
  | .failed => .ret true none
  | .eof => .ret true none
  | .data bytes =>
    let memory := bytes ++ call.stack.memory.drop bytes.length
    let totalSize := call.totalSize + bytes.length
    if 3 ≤ totalSize then .ret true (processBuf call.stack.duration memory)
    else .again { stack := { call.stack with memory }, totalSize }

/-- A connection in `main`: accepted, then registered for events, then closed. -/
structure Conn where
  registered : Bool
  closed : Bool
  calls : Nat
  call : Call
  queue : List Msg
  deriving DecidableEq, Repr

section Conn

/- What each call finds on the stack. -/
variable (stack : Nat → Stack)

/-- The early call in the accept loop. -/
def Conn.start : Conn where
  registered := false
  closed := false
  calls := 0
  call := ⟨stack 0, 0⟩
  queue := []

/-- One `read` on the connection. When a call returns, the next event is awaited;
only the event loop looks at the result and closes. -/
def Conn.read (c : Conn) (r : Read) : Conn :=
  if c.closed then c
  else
    match processRead c.call r with
    | .again call => { c with call }
    | .ret done msg =>
      { registered := true
        closed := c.registered && done
        calls := c.calls + 1
        call := ⟨stack (c.calls + 1), 0⟩
        queue := c.queue ++ msg.toList }

def Conn.run (c : Conn) (reads : List Read) : Conn := reads.foldl (Conn.read stack) c

end Conn

/-! ## What the socket does -/

def Read.isData : Read → Bool
  | .data _ => true
  | _ => false

/-- The reads that deliver some bytes: cut anywhere, with any number of `EAGAIN`
in between, and without any data in the end. -/
inductive Delivery : Bytes → List Read → Prop where
  | done {reads : List Read} (hnone : ∀ r ∈ reads, r.isData = false) : Delivery [] reads
  | eagain {bytes : Bytes} {reads : List Read} (h : Delivery bytes reads) :
      Delivery bytes (.eagain :: reads)
  | data {chunk bytes : Bytes} {reads : List Read} (hne : chunk ≠ []) (h : Delivery bytes reads) :
      Delivery (chunk ++ bytes) (.data chunk :: reads)

/-- The first `send` takes the whole request. -/
def sendsWhole (msg : Msg) (sends : List Sent) : Prop :=
  ∃ n, sends.head? = some (.count n) ∧ (text msg).length ≤ n

/-- Only one of the reads returns data. -/
def onePiece (reads : List Read) : Prop := (reads.filter (·.isData)).length ≤ 1

/-! ## The text of a request -/

/-- A byte of a printed number. -/
theorem printInt_mem {n : Int} {b : UInt8} (hb : b ∈ printInt n) : b = 45 ∨ (48 ≤ b ∧ b ≤ 57) := by
  rcases mem_append.mp hb with hb | hb
  · split at hb
    · exact .inl (mem_singleton.mp hb)
    · cases hb
  · exact .inr (Lib.digits_range hb)

/-- The number is not cut off: with its sign it has at most eleven bytes. -/
theorem length_text_vibrate (duration : Int32) :
    3 ≤ (text (.vibrate duration)).length ∧ (text (.vibrate duration)).length ≤ 13 := by
  have hpos : 0 < (Lib.digits duration.toInt.natAbs).length :=
    length_pos_of_ne_nil (Lib.digits_ne_nil _)
  have hdigits : (Lib.digits duration.toInt.natAbs).length ≤ 10 := by
    rw [Lib.length_digits_le (by decide)]
    have hlow := duration.le_toInt
    have hhigh := duration.toInt_lt
    omega
  simp only [text, printInt, length_cons, length_append, length_nil]
  split <;> simp only [length_cons, length_nil] <;> omega

theorem length_text (msg : Msg) : 3 ≤ (text msg).length := by
  cases msg with
  | vibrate duration => exact (length_text_vibrate duration).1
  | stop => exact Nat.le_refl 3

/-- One `send` that takes everything sends the buffer. -/
theorem sendInternal_whole {buf : Bytes} {len n : Nat} {sends : List Sent} (hpos : 0 < len)
    (hlen : len ≤ n) (hsends : sends.head? = some (.count n)) :
    sendInternal buf len sends = (buf.take len, .ok) := by
  obtain ⟨rest, rfl⟩ := List.head?_eq_some_iff.mp hsends
  obtain ⟨remaining, rfl⟩ := Nat.exists_eq_add_of_lt hpos
  rw [Nat.zero_add, sendInternal, Nat.sub_eq_zero_of_le (by omega), sendInternal,
    take_take, Nat.min_eq_right (by omega), append_nil]

/-- Then the client sends the text of the request. -/
theorem request_text {msg : Msg} {sends : List Sent} (h : sendsWhole msg sends) :
    request msg sends = (text msg, .ok) := by
  obtain ⟨n, hsends, hlen⟩ := h
  have hpos : 0 < (text msg).length := Nat.lt_of_lt_of_le (by decide) (length_text msg)
  cases msg with
  | vibrate duration =>
    have hfits := (length_text_vibrate duration).2
    rw [request, immvibeConnVibrate, snprintf, take_of_length_le (by omega)]
    refine (sendInternal_whole hpos hlen hsends).trans ?_
    rw [take_left]
  | stop => exact sendInternal_whole hpos hlen hsends

/-! ## Partial sends -/

/-- The bytes that a `send` took. -/
def Sent.taken : Sent → Nat
  | .count n => n
  | .failed => 0

/-- The place in the message behind what the sends took. -/
def offset : List Sent → Nat
  | [] => 0
  | s :: sends => s.taken + offset sends

/-- What is due at the place of a `send` is also the beginning of the message. -/
def aligned (message : Bytes) (start : Nat) (sends : List Sent) : Prop :=
  ∀ before n after, sends = before ++ .count n :: after →
    (message.drop (start + offset before)).take n <+: message

/-- The first `send` and the others behind it. -/
theorem aligned_cons {message : Bytes} {start n : Nat} {sends : List Sent} :
    aligned message start (.count n :: sends) ↔
      (message.drop start).take n <+: message ∧ aligned message (start + n) sends := by
  constructor
  · intro h
    refine ⟨h [] n sends rfl, fun before k after hsends => ?_⟩
    have hlater := h (.count n :: before) k after (by rw [hsends, cons_append])
    rwa [offset, Sent.taken, ← Nat.add_assoc] at hlater
  · rintro ⟨hfirst, hrest⟩ before k after hsends
    cases before with
    | nil =>
      cases hsends
      exact hfirst
    | cons sent before =>
      cases hsends
      have hlater := hrest before k after rfl
      rwa [Nat.add_assoc] at hlater

/-- Behind the end nothing is due. -/
theorem aligned_end {message : Bytes} {start : Nat} (h : message.length ≤ start)
    (sends : List Sent) : aligned message start sends := by
  intro before n after _
  rw [drop_eq_nil_of_le (by omega), take_nil]
  exact nil_prefix

theorem sendInternal_iff {buf : Bytes} {remaining start : Nat} {sends : List Sent}
    (hlength : start + remaining = buf.length)
    (hok : (sendInternal buf remaining sends).2 = .ok) :
    (sendInternal buf remaining sends).1 = buf.drop start ↔ aligned buf start sends := by
  induction sends generalizing remaining start with
  | nil =>
    cases remaining with
    | zero => exact iff_of_true (drop_eq_nil_of_le (by omega)).symm (aligned_end (by omega) _)
    | succ remaining => cases hok
  | cons sent sends ih =>
    cases remaining with
    | zero => exact iff_of_true (drop_eq_nil_of_le (by omega)).symm (aligned_end (by omega) _)
    | succ remaining =>
      cases sent with
      | failed => cases hok
      | count n =>
        -- the piece and what is due there have the same length
        have hpiece : (buf.take (remaining + 1)).take n = (buf.drop start).take n ↔
            (buf.drop start).take n <+: buf := by
          rw [prefix_iff_eq_take, take_take, length_take, length_drop, eq_comm,
            show buf.length - start = remaining + 1 by omega]
        have hsplit : (sendInternal buf (remaining + 1) (.count n :: sends)).1 = buf.drop start ↔
            (buf.take (remaining + 1)).take n = (buf.drop start).take n ∧
              (sendInternal buf (remaining + 1 - n) sends).1 = (buf.drop start).drop n := by
          rw [sendInternal]
          conv => lhs; rhs; rw [← take_append_drop n (buf.drop start)]
          refine ⟨fun h => append_inj h ?_, fun h => by rw [h.1, h.2]⟩
          simp only [length_take, length_drop]
          omega
        rw [hsplit, hpiece, aligned_cons, drop_drop]
        refine and_congr_right fun _ => ?_
        rcases Nat.lt_or_ge (remaining + 1) n with hlt | hge
        · -- more than was asked for: the loop is done
          rw [Nat.sub_eq_zero_of_le (Nat.le_of_lt hlt)]
          refine iff_of_true ?_ (aligned_end (by omega) _)
          rw [sendInternal, drop_eq_nil_of_le (by omega)]
        · exact ih (by omega) hok

/-- A first `send` that takes everything. -/
theorem aligned_whole {buf : Bytes} {n : Nat} (hn : buf.length ≤ n) (sends : List Sent) :
    aligned buf 0 (.count n :: sends) := by
  rw [aligned_cons, Nat.zero_add, drop_zero]
  refine ⟨?_, aligned_end hn sends⟩
  exact take_prefix n buf

/-- When `send_internal` returns 0, the message was sent exactly if the pieces
are aligned. -/
theorem sent_intact (message : Bytes) (sends : List Sent)
    (hok : (sendInternal message message.length sends).2 = .ok) :
    (sendInternal message message.length sends).1 = message ↔ aligned message 0 sends :=
  sendInternal_iff (Nat.zero_add _) hok

/-- `+1000$` at once. -/
theorem sent_intact_once :
    (sendInternal (bytes "+1000$") 6 [.count 6]).2 = .ok
      ∧ (sendInternal (bytes "+1000$") 6 [.count 6]).1 = bytes "+1000$" :=
  ⟨rfl, (sent_intact (bytes "+1000$") [.count 6] rfl).mpr
    (@aligned_whole (bytes "+1000$") 6 (Nat.le_refl 6) [])⟩

/-- `+1000$` in two halves: the first one is sent twice. -/
theorem sent_twice :
    sendInternal (bytes "+1000$") 6 [.count 3, .count 3] = (bytes "+10+10", .ok) := by
  decide

/-! ## Reading the text -/

/-- The string goes on behind the `$`. -/
theorem cString_printInt (n : Int) (memory : Bytes) :
    cString (printInt n ++ 36 :: memory) = printInt n ++ 36 :: cString memory := by
  have hnonzero : ∀ b ∈ printInt n, (b != 0) = true := by
    intro b hb
    rcases printInt_mem hb with rfl | ⟨hlow, -⟩
    · rfl
    · refine bne_iff_ne.mpr fun hzero => ?_
      rw [hzero] at hlow
      cases hlow
  rw [cString, takeWhile_append_of_pos hnonzero]
  rfl

/-- A digit is neither a sign nor white space. -/
theorem digit_plain {b : UInt8} (hlow : 48 ≤ b) : isspace b = false ∧ b ≠ 45 ∧ b ≠ 43 := by
  have hnat : 48 ≤ b.toNat := UInt8.le_iff_toNat_le.mp hlow
  have hne : ∀ c : UInt8, c.toNat < 48 → b ≠ c := by
    rintro c hc rfl
    omega
  have hhigh : ¬ b ≤ 13 := fun hle => by
    have := UInt8.le_iff_toNat_le.mp hle
    have : (13 : UInt8).toNat = 13 := rfl
    omega
  refine ⟨?_, hne 45 (by decide), hne 43 (by decide)⟩
  simp [isspace, hne 32 (by decide), hhigh]

/-- A sign and some digits are read as a number, up to what is no digit. -/
theorem sscanfInt_digits (negative : Bool) {ds rest : Bytes} (hne : ds ≠ [])
    (hds : ∀ b ∈ ds, 48 ≤ b ∧ b ≤ 57) (hrest : rest.takeWhile isdigit = []) :
    sscanfInt ((if negative then [45] else []) ++ (ds ++ rest))
      = .value (Int32.ofInt (if negative then -decimal ds else decimal ds)) := by
  have htake : (ds ++ rest).takeWhile isdigit = ds := by
    rw [takeWhile_append_of_pos, hrest, append_nil]
    intro b hb
    simp [isdigit, hds b hb]
  obtain ⟨d, ds', rfl⟩ := exists_cons_of_ne_nil hne
  cases negative with
  | true =>
    have hstart : (45 :: (d :: ds' ++ rest)).dropWhile isspace = 45 :: (d :: ds' ++ rest) := rfl
    have hminus : ((45 :: (d :: ds' ++ rest)).head? == some 45) = true := rfl
    simp only [if_true, singleton_append, sscanfInt, hstart, hminus, Bool.true_or, drop_succ_cons,
      drop_zero, htake]
    rw [if_neg (cons_ne_nil _ _), if_neg hne]
  | false =>
    obtain ⟨hspace, hminus, hplus⟩ := digit_plain (hds d mem_cons_self).1
    have hstart : (d :: ds' ++ rest).dropWhile isspace = d :: ds' ++ rest := by
      rw [cons_append, dropWhile_cons_of_neg (by simp [hspace])]
    have hsign : ((d :: ds' ++ rest).head? == some (45 : UInt8)) = false ∧
        ((d :: ds' ++ rest).head? == some (43 : UInt8)) = false := by
      simp [hminus, hplus]
    simp only [Bool.false_eq_true, if_false, nil_append, sscanfInt, hstart, hsign.1, hsign.2,
      Bool.or_false, htake]
    rw [if_neg (append_ne_nil_of_left_ne_nil hne _), if_neg hne]

/-- A printed number is read back. -/
theorem sscanfInt_printInt (n : Int) (rest : Bytes) :
    sscanfInt (printInt n ++ 36 :: rest) = .value (Int32.ofInt n) := by
  have hdigits : decimal (Lib.digits n.natAbs) = n.natAbs := Lib.foldl_digits _
  have h := @sscanfInt_digits (decide (n < 0)) (Lib.digits n.natAbs) (36 :: rest)
    (Lib.digits_ne_nil _) (fun b hb => Lib.digits_range hb) rfl
  rw [hdigits, ← append_assoc] at h
  simp only [decide_eq_true_eq] at h
  have hvalue : (if n < 0 then -(n.natAbs : Int) else (n.natAbs : Int)) = n := by
    split <;> omega
  rwa [hvalue] at h

/-- A whole request is understood, whatever stands behind it. -/
theorem processBuf_text (duration : Int32) (msg : Msg) (memory : Bytes) :
    processBuf duration (text msg ++ memory) = some msg := by
  cases msg with
  | vibrate n =>
    have hrest : (text (.vibrate n) ++ memory).drop 1 = printInt n.toInt ++ 36 :: memory := by
      simp [text]
    have hplus : (text (.vibrate n) ++ memory).head? = some 43 := rfl
    rw [processBuf, if_pos hplus, hrest, cString_printInt, sscanfInt_printInt, Int32.ofInt_toInt]
  | stop => rfl

/-! ## The connection -/

/-- No byte was read, and nothing is in the queue. -/
structure Fresh (c : Conn) : Prop where
  closed : c.closed = false
  totalSize : c.call.totalSize = 0
  queue : c.queue = []

section Connection

variable (stack : Nat → Stack) {c : Conn}

theorem Fresh.start : Fresh (.start stack) := ⟨rfl, rfl, rfl⟩

theorem Fresh.eagain (h : Fresh c) : Fresh (c.read stack .eagain) := by
  have hret : c.read stack .eagain = { c with
      registered := true
      closed := c.registered && false
      calls := c.calls + 1
      call := ⟨stack (c.calls + 1), 0⟩
      queue := c.queue ++ [] } := by
    rw [Conn.read, if_neg (by rw [h.closed]; decide)]
    rfl
  rw [hret]
  exact ⟨Bool.and_false _, rfl, by rw [append_nil, h.queue]⟩

/-- The queue behind a `read` with data, from three bytes on. -/
theorem queue_read_data (bytes : Bytes) :
    (c.read stack (.data bytes)).queue =
      if c.closed = false ∧ 3 ≤ c.call.totalSize + bytes.length then
        c.queue ++ (processBuf c.call.stack.duration
          (bytes ++ c.call.stack.memory.drop bytes.length)).toList
      else c.queue := by
  rw [Conn.read, processRead]
  cases c.closed with
  | true => rfl
  | false =>
    by_cases hsize : 3 ≤ c.call.totalSize + bytes.length
    · simp only [hsize, Bool.false_eq_true, if_false, if_true, and_true]
    · simp only [hsize, Bool.false_eq_true, if_false, and_false]

/-- The whole request in one `read`. -/
theorem Fresh.data_text (h : Fresh c) (msg : Msg) :
    (c.read stack (.data (text msg))).queue = [msg] := by
  have hlen := length_text msg
  rw [queue_read_data, if_pos ⟨h.closed, by omega⟩, processBuf_text, h.queue]
  rfl

/-- Without data nothing is put into the queue. -/
theorem queue_read_none {r : Read} (hr : r.isData = false) : (c.read stack r).queue = c.queue := by
  rw [Conn.read]
  split
  · rfl
  · cases r with
    | data bytes => cases hr
    | eagain => exact append_nil _
    | failed => exact append_nil _
    | eof => exact append_nil _

theorem queue_run_none {reads : List Read} (h : ∀ r ∈ reads, r.isData = false) :
    (c.run stack reads).queue = c.queue := by
  induction reads generalizing c with
  | nil => rfl
  | cons r reads ih =>
    have hrest := ih (c := c.read stack r) fun r' hr' => h r' (mem_cons_of_mem r hr')
    exact hrest.trans (queue_read_none stack (h r mem_cons_self))

end Connection

section Pieces

variable {stack : Nat → Stack} {c : Conn} {msg : Msg} {bytes : Bytes} {reads : List Read}

/-- Reads without data deliver nothing. -/
theorem Delivery.eq_nil (h : Delivery bytes reads) (hnone : ∀ r ∈ reads, r.isData = false) :
    bytes = [] := by
  induction h with
  | done _ => rfl
  | eagain _ ih => exact ih fun r hr => hnone r (mem_cons_of_mem _ hr)
  | data _ _ _ =>
    have hdata := hnone _ mem_cons_self
    cases hdata

/-- Over any reads that deliver the request in one piece, from a connection on
which nothing was read. -/
theorem queue_run_text (hc : Fresh c) (h : Delivery bytes reads) (hbytes : bytes = text msg)
    (hone : onePiece reads) : (c.run stack reads).queue = [msg] := by
  induction h generalizing c with
  | done _ =>
    have hlen := length_text msg
    rw [← hbytes] at hlen
    cases hlen
  | eagain _ ih => exact ih (hc.eagain stack) hbytes hone
  | @data chunk rest reads hne h _ =>
    -- the other reads have no data, so this one has the whole request
    have hnone : ∀ r ∈ reads, r.isData = false := by
      have hzero : (reads.filter (·.isData)).length = 0 := by
        simpa [onePiece, Read.isData] using hone
      intro r hr
      simpa using filter_eq_nil_iff.mp (eq_nil_of_length_eq_zero hzero) r hr
    obtain rfl : rest = [] := h.eq_nil hnone
    obtain rfl : chunk = text msg := by rw [← hbytes, append_nil]
    exact (queue_run_none stack hnone).trans (hc.data_text stack msg)

/-! ## Requests in several pieces -/

/-- The first byte of a request, which it has nowhere else. -/
theorem text_head (msg : Msg) : ∃ b rest, text msg = b :: rest ∧ b ∉ rest ∧
    ∀ duration memory, processBuf duration memory = some msg → memory.head? = some b := by
  cases msg with
  | vibrate n =>
    refine ⟨43, _, rfl, ?_, ?_⟩
    · intro hmem
      rcases mem_append.mp hmem with hmem | hmem
      · rcases printInt_mem hmem with hminus | ⟨hlow, -⟩
        · cases hminus
        · exact absurd hlow (by decide)
      · exact absurd (mem_singleton.mp hmem) (by decide)
    · intro duration memory h
      refine Classical.byContradiction fun hne => ?_
      rw [processBuf, if_neg hne] at h
      split at h <;> cases h
  | stop =>
    refine ⟨45, _, rfl, by decide, ?_⟩
    intro duration memory h
    refine Classical.byContradiction fun hne => ?_
    rw [processBuf, if_neg hne] at h
    split at h
    · split at h <;> cases h
    · cases h

/-- Nothing is taken out of the queue. -/
theorem queue_prefix_run (reads : List Read) : c.queue <+: (c.run stack reads).queue := by
  induction reads generalizing c with
  | nil => exact prefix_rfl
  | cons r reads ih =>
    refine .trans ?_ (@ih (c.read stack r))
    cases hdata : r.isData with
    | false =>
      exact queue_read_none (c := c) stack hdata ▸ prefix_rfl
    | true =>
      cases r with
      | data bytes =>
        rw [queue_read_data]
        split
        · exact prefix_append _ _
        · exact prefix_rfl
      | _ => cases hdata

/-- Bytes without the first one of the request do not put its message into the
queue, in whatever pieces they come. -/
theorem not_mem_run {b : UInt8}
    (hbuf : ∀ duration memory, processBuf duration memory = some msg → memory.head? = some b)
    (h : Delivery bytes reads) (hb : b ∉ bytes)
    (hc : msg ∉ c.queue) : msg ∉ (c.run stack reads).queue := by
  induction h generalizing c with
  | done hnone => rwa [queue_run_none stack hnone]
  | eagain _ ih =>
    refine ih hb ?_
    rwa [queue_read_none stack rfl]
  | @data chunk bytes reads hne _ ih =>
    refine ih (fun hmem => hb (mem_append_right _ hmem)) ?_
    rw [queue_read_data]
    split
    · rw [mem_append, Option.mem_toList]
      rintro (hmem | hmem)
      · exact hc hmem
      · have hhead := hbuf _ _ hmem
        rw [head?_append_of_ne_nil _ hne] at hhead
        exact hb (mem_append_left _ (mem_of_head? hhead))
    · exact hc

/-- One of two further digits makes another number. -/
theorem exists_wrong_digit (negative : Bool) (ds : Bytes) (n : Int32) :
    ∃ e : UInt8, 48 ≤ e ∧ e ≤ 57 ∧
      Int32.ofInt (if negative then -decimal (ds ++ [e]) else decimal (ds ++ [e])) ≠ n := by
  have hdecimal : ∀ e : UInt8, decimal (ds ++ [e]) = 10 * decimal ds + (e.toNat - 48) := by
    intro e
    rw [decimal, foldl_append]
    rfl
  have hnext : decimal (ds ++ [49]) = decimal (ds ++ [48]) + 1 := by
    rw [hdecimal, hdecimal]
    rfl
  have hdiff : ∀ k : Nat, -(k : Int) - -((k + 1 : Nat) : Int) = 1 ∧
      (k : Int) - ((k + 1 : Nat) : Int) = -1 := by
    omega
  by_cases hzero :
      Int32.ofInt (if negative then -decimal (ds ++ [48]) else decimal (ds ++ [48])) = n
  · refine ⟨49, by decide, by decide, fun hone => ?_⟩
    rw [← hone, hnext] at hzero
    have hvalue := congrArg Int32.toInt hzero
    rw [Int32.toInt_ofInt, Int32.toInt_ofInt, Int.bmod_eq_bmod_iff_bmod_sub_eq_zero] at hvalue
    cases negative with
    | true =>
      rw [if_pos rfl, if_pos rfl, (hdiff _).1] at hvalue
      cases hvalue
    | false =>
      rw [if_neg Bool.false_ne_true, if_neg Bool.false_ne_true, (hdiff _).2] at hvalue
      cases hvalue
  · exact ⟨48, by decide, by decide, hzero⟩

/-- Three bytes or more of a duration, but not all: what stands behind them on the
stack is read as well. -/
theorem exists_wrong_duration {n : Int32} {chunk rest : Bytes}
    (htext : text (.vibrate n) = chunk ++ rest) (hrest : rest ≠ []) (hthree : 3 ≤ chunk.length) :
    ∃ e : UInt8, ∃ n' ≠ n, ∀ duration, processBuf duration (chunk ++ [e]) = some (.vibrate n') := by
  obtain ⟨plus, number, rfl⟩ := exists_cons_of_length_pos (show 0 < chunk.length by omega)
  obtain ⟨rfl, hnumber⟩ := cons.inj (htext.trans (cons_append ..))
  rw [length_cons] at hthree
  -- the number is cut behind a digit
  have hbegins : number <+: printInt n.toInt := by
    refine prefix_of_prefix_length_le ⟨rest, hnumber.symm⟩ (prefix_append _ _) ?_
    have hlength := congrArg length hnumber
    rw [length_append, length_append, length_singleton] at hlength
    have hpos := length_pos_of_ne_nil hrest
    omega
  have hsign : (if n.toInt < 0 then [(45 : UInt8)] else []).length ≤ 1 := by
    split <;> decide
  obtain ⟨ds, rfl⟩ := prefix_of_prefix_length_le (prefix_append _ _) hbegins
    (Nat.le_trans hsign (by omega))
  have hdigits := (prefix_append_right_inj _).mp hbegins
  have hne : ds ≠ [] := by
    rintro rfl
    rw [append_nil] at hthree
    omega
  obtain ⟨e, hlow, hhigh, hwrong⟩ := exists_wrong_digit (decide (n.toInt < 0)) ds n
  have hrange : ∀ b ∈ ds ++ [e], 48 ≤ b ∧ b ≤ 57 := by
    intro b hb
    rcases mem_append.mp hb with hb | hb
    · exact Lib.digits_range (hdigits.subset hb)
    · rw [mem_singleton.mp hb]
      exact ⟨hlow, hhigh⟩
  refine ⟨e, _, hwrong, fun duration => ?_⟩
  have hscan := @sscanfInt_digits (decide (n.toInt < 0)) (ds ++ [e]) []
    (append_ne_nil_of_left_ne_nil hne _) hrange rfl
  rw [append_nil, ← append_assoc] at hscan
  simp only [decide_eq_true_eq] at hscan ⊢
  have hnonzero : ∀ b ∈ (if n.toInt < 0 then [45] else []) ++ ds ++ [e], (b != 0) = true := by
    intro b hb
    rw [append_assoc] at hb
    rcases mem_append.mp hb with hb | hb
    · split at hb
      · rw [mem_singleton.mp hb]
        rfl
      · cases hb
    · refine bne_iff_ne.mpr fun hzero => ?_
      have hlow := (hrange b hb).1
      rw [hzero] at hlow
      cases hlow
  have hstring := @takeWhile_append_of_pos _ _ _ [] hnonzero
  rw [takeWhile_nil, append_nil] at hstring
  have hplus :
      (43 :: ((if n.toInt < 0 then [45] else []) ++ ds ++ [e])).head? = some (43 : UInt8) := rfl
  rw [cons_append, processBuf, if_pos hplus, drop_succ_cons, drop_zero, cString, hstring, hscan]

/-- When all bytes are delivered no more data comes. -/
theorem Delivery.none_of_nil (h : Delivery bytes reads) (hbytes : bytes = []) :
    ∀ r ∈ reads, r.isData = false := by
  induction h with
  | done hnone => exact hnone
  | eagain _ ih => exact forall_mem_cons.mpr ⟨rfl, ih hbytes⟩
  | data hne _ _ => exact absurd (append_eq_nil_iff.mp hbytes).1 hne

/-- In more than one piece a request is lost, or read with what is on the stack. -/
theorem exists_run_ne (h : Delivery bytes reads) (hbytes : bytes = text msg)
    (hmany : ¬ onePiece reads) :
    ∃ s : Stack, ∀ c : Conn, Fresh c → c.call.stack = s →
      (c.run (fun _ => s) reads).queue ≠ [msg] := by
  have honePiece : ∀ {reads : List Read}, (∀ r ∈ reads, r.isData = false) →
      (reads.filter (·.isData)).length = 0 := by
    intro reads hnone
    rw [filter_eq_nil_iff.mpr fun r hr => by simp [hnone r hr]]
    rfl
  induction h with
  | done hnone => exact absurd (Nat.le_succ_of_le (Nat.le_of_eq (honePiece hnone))) hmany
  | eagain _ ih =>
    obtain ⟨s, hs⟩ := ih hbytes hmany
    refine ⟨s, fun c hc _ => hs _ (hc.eagain _) ?_⟩
    rw [Conn.read, if_neg (by rw [hc.closed]; decide)]
    rfl
  | @data chunk rest reads hne h _ =>
    have hrest : rest ≠ [] := by
      intro hnil
      refine hmany (Nat.le_of_eq ?_)
      rw [filter_cons_of_pos rfl, length_cons, honePiece (h.none_of_nil hnil)]
    rcases Nat.lt_or_ge chunk.length 3 with hshort | hthree
    · -- the first byte of the request is not looked at any more
      obtain ⟨b, tail, htext, hb, hbuf⟩ := text_head msg
      obtain ⟨b', chunk', rfl⟩ := exists_cons_of_ne_nil hne
      obtain ⟨rfl, htail⟩ := cons.inj ((cons_append ..).symm.trans (hbytes.trans htext))
      refine ⟨⟨[], 0⟩, fun c hc hstack hqueue => ?_⟩
      refine not_mem_run (c := c.read _ (.data (b' :: chunk'))) hbuf h ?_ ?_
        (hqueue ▸ mem_singleton_self msg)
      · exact fun hmem => hb (htail ▸ mem_append_right _ hmem)
      · rw [queue_read_data, if_neg (by rw [hc.totalSize]; omega), hc.queue]
        exact not_mem_nil
    · cases msg with
      | stop =>
        have hlength := congrArg length hbytes
        have hpos := length_pos_of_ne_nil hrest
        rw [length_append] at hlength
        have hstop : (text .stop).length = 3 := rfl
        omega
      | vibrate n =>
        obtain ⟨e, n', hne', hwrong⟩ := exists_wrong_duration hbytes.symm hrest hthree
        refine ⟨⟨List.replicate chunk.length 0 ++ [e], 0⟩, fun c hc hstack hqueue => ?_⟩
        rw [Conn.run, foldl_cons] at hqueue
        generalize (fun _ : Nat => (⟨List.replicate chunk.length 0 ++ [e], 0⟩ : Stack)) = found
          at hqueue
        have hread := @queue_read_data found c chunk
        rw [if_pos ⟨hc.closed, by omega⟩, hc.queue, hstack, drop_left' length_replicate, hwrong]
          at hread
        have hbegins := @queue_prefix_run found (c.read found (.data chunk)) reads
        rw [hread, Conn.run, hqueue] at hbegins
        have hhead := (cons_prefix_cons.mp hbegins).1
        cases hhead
        exact hne' rfl

end Pieces

/-- Whatever the stack holds and however often there is nothing to read: if the
request is sent at once and arrives in one piece, its message is put into the
queue, once, and nothing else. -/
theorem request_enqueued {msg : Msg} {sends : List Sent} {reads : List Read}
    (hsends : sendsWhole msg sends) (hreads : Delivery (request msg sends).1 reads) :
    (∀ stack : Nat → Stack, (Conn.run stack (.start stack) reads).queue = [msg]) ↔
      onePiece reads := by
  rw [request_text hsends] at hreads
  refine ⟨fun hall => ?_, fun hone stack => queue_run_text (.start stack) hreads rfl hone⟩
  refine Classical.byContradiction fun hmany => ?_
  obtain ⟨s, hs⟩ := exists_run_ne hreads rfl hmany
  exact hs _ (.start _) rfl (hall fun _ => s)

/-- The stack has the same byte everywhere. -/
def filledStack (b : UInt8) (_ : Nat) : Stack := ⟨List.replicate 512 b, 0⟩

/-- A negative duration, on a stack full of digits: nothing to read yet, the
request, and the end. -/
theorem request_enqueued_negative :
    sendsWhole (.vibrate (-500)) [.count 6]
      ∧ Delivery (request (.vibrate (-500)) [.count 6]).1
        [.eagain, .data (bytes "+-500$"), .eagain, .eof]
      ∧ (Conn.run (filledStack 57) (.start (filledStack 57))
        [.eagain, .data (bytes "+-500$"), .eagain, .eof]).queue = [.vibrate (-500)] := by
  have hsends : sendsWhole (.vibrate (-500)) [.count 6] := ⟨6, rfl, by decide +kernel⟩
  have hrequest : (request (.vibrate (-500)) [.count 6]).1 = bytes "+-500$" ++ [] := by
    decide +kernel
  have hreads : Delivery (request (.vibrate (-500)) [.count 6]).1
      [.eagain, .data (bytes "+-500$"), .eagain, .eof] := by
    rw [hrequest]
    exact .eagain (.data (by decide) (.done (by decide)))
  exact ⟨hsends, hreads, (request_enqueued hsends hreads).mpr (Nat.le_refl 1) (filledStack 57)⟩

/-- Requests that arrive in two pieces, on a stack of zeros: a vibration that is
lost, one that is shorter than requested, one that is taken for a stop, and a
stop that is lost. -/
theorem request_cut :
    (Delivery (request (.vibrate 500) [.count 5]).1 [.data (bytes "+5"), .data (bytes "00$")]
      ∧ (Conn.run (filledStack 0) (.start (filledStack 0))
        [.data (bytes "+5"), .data (bytes "00$")]).queue = [])
    ∧ (Delivery (request (.vibrate 500) [.count 5]).1 [.data (bytes "+50"), .data (bytes "0$")]
      ∧ (Conn.run (filledStack 0) (.start (filledStack 0))
        [.data (bytes "+50"), .data (bytes "0$")]).queue = [.vibrate 50])
    ∧ (Delivery (request (.vibrate (-5)) [.count 4]).1 [.data (bytes "+"), .data (bytes "-5$")]
      ∧ (Conn.run (filledStack 0) (.start (filledStack 0))
        [.data (bytes "+"), .data (bytes "-5$")]).queue = [.stop])
    ∧ Delivery (request .stop [.count 3]).1 [.data (bytes "-"), .data (bytes "0$")]
      ∧ (Conn.run (filledStack 0) (.start (filledStack 0))
        [.data (bytes "-"), .data (bytes "0$")]).queue = [] := by
  have htwo : ∀ {whole first second : Bytes}, whole = first ++ (second ++ []) → first ≠ [] →
      second ≠ [] → Delivery whole [.data first, .data second] := by
    rintro _ first second rfl hfirst hsecond
    exact .data hfirst (.data hsecond (.done (by decide)))
  refine ⟨⟨?_, by decide +kernel⟩, ⟨?_, by decide +kernel⟩, ⟨?_, by decide +kernel⟩, ?_,
    by decide +kernel⟩
  all_goals exact htwo (by decide +kernel) (by decide) (by decide)

end Arale.Immvibe
