import Arale.Mux.Buffer
import Arale.Mux.Memstr

/-!
# `chatCmux`: the answer to `AT+CMUX`

`chatCmux` sends the command that starts the multiplexer and reads until the
answer is there: `OK`, `ERROR`, or `+CMUX: READY` before an `OK` from a newer
modem. Every read is appended to the boot buffer, and the buffer is searched
from its first cell.

Mirroring notes:
- A label of the loop is what `select` and, behind it, `read` come to. When
  there is none left, the modem is silent and `select` runs into its timeout.
- The search for `OK` goes over as many octets as the last `read` returned, the
  other two over all that is stored. So an `OK` is seen only when a single read
  is long enough to cover the buffer up to its end.
- The boot buffer is searched as an array; its read pointer never moves, and a
  `+CMUX: READY` empties it.
- The pause before the result of an older modem is left out.

> `chatCmux_result`: an answer with one of `OK` and `ERROR` gives 0 or -1 in any
> pieces, for `OK` exactly if one of the reads is that long and the letters `O`
> in front of the `K` are odd in number.
> `chunking_matters`: without that, the same answer gives both results.
-/

namespace Arale.Mux

open List
open Arale.Lib (Ring)
open Arale.At (bytes)

/-! ## The function -/

/-- What a `write` of the command comes to. -/
inductive ChatWrite where
  | wrote (n : Nat)
  | eintr
  | failed
  deriving DecidableEq, Repr

/-- The main string, with `left` octets still to be written; writes that are not
listed complete. -/
def writeCommand : Nat → List ChatWrite → Option (List ChatWrite)
  | _, [] => some []
  | left, w :: writes =>
    if left = 0 then some (w :: writes)
    else
      match w with
      | .wrote n => writeCommand (left - n) writes
      | .eintr => writeCommand left writes
      | .failed => none

/-- The carriage return. -/
def writeCr : List ChatWrite → Bool
  | [] => true
  | .wrote n :: writes => if n = 0 then writeCr writes else true
  | .eintr :: writes => writeCr writes
  | .failed :: _ => false

/-- The command reaches the modem. -/
def writeChat (cmd : List UInt8) (writes : List ChatWrite) : Bool :=
  (writeCommand cmd.length writes).any writeCr

/-- What a turn of the loop meets: `select` is interrupted, fails, times out or
reports something else than the device, or the `read` behind it fails or returns
octets. -/
inductive ChatSelect where
  | eintr
  | failed
  | timeout
  | notSet
  | readFailed
  | read (octets : List UInt8)
  deriving DecidableEq, Repr

/-- The array of the boot buffer. -/
def bootData (buf : Gsm0710Buffer) : List UInt8 :=
  (List.range gsm0710BufferSize).map buf.ring.data

/-- The boot buffer is cleared. -/
def clearBoot (buf : Gsm0710Buffer) : Gsm0710Buffer :=
  { buf with ring := Ring.empty (fun _ => 0) 0 gsm0710BufferSize_pos }

/-- The loop. -/
def chatCmuxLoop : List ChatSelect → Bool → Gsm0710Buffer → Int × Gsm0710Buffer
  | [], _, buf => (-1, buf)
  | .eintr :: selects, checkMuxFlag, buf => chatCmuxLoop selects checkMuxFlag buf
  | .read octets :: selects, checkMuxFlag, buf =>
    let buf := gsm0710BufferWrite buf octets
    -- both settings of `checkMuxFlag` return 0
    if memstr (bootData buf) octets.length (bytes "OK") then (0, buf)
    else if memstr (bootData buf) (gsm0710BufferLength buf) (bytes "+CMUX: READY") then
      chatCmuxLoop selects true (clearBoot buf)
    else if memstr (bootData buf) (gsm0710BufferLength buf) (bytes "ERROR") then (-1, buf)
    else chatCmuxLoop selects checkMuxFlag buf
  | _ :: _, _, buf => (-1, buf)

/-- Sends an AT-command to a given serial port and waits for reply. -/
def chatCmux (cmd : List UInt8) (writes : List ChatWrite) (selects : List ChatSelect)
    (buf : Gsm0710Buffer) : Int × Gsm0710Buffer :=
  if writeChat cmd writes then chatCmuxLoop selects false buf else (-1, buf)

/-! ## The answer and its pieces -/

/-- How often a word occurs in a text. -/
def occurrences (needle haystack : List UInt8) : Nat :=
  haystack.tails.countP (needle.isPrefixOf ·)

/-- The octets of the reads. -/
def received : List ChatSelect → List UInt8
  | [] => []
  | .read octets :: selects => octets ++ received selects
  | _ :: selects => received selects

/-- Nothing but reads and interruptions. -/
def delivers (selects : List ChatSelect) : Prop :=
  ∀ s ∈ selects, s = .eintr ∨ ∃ octets, s = .read octets

/-- An empty boot buffer, whose cells may hold anything. -/
def EmptyBoot (buf : Gsm0710Buffer) : Prop := buf.ring.readp = 0 ∧ buf.ring.datacount = 0

/-- How many letters `O` a text ends with. -/
def lastOs (text : List UInt8) : Nat := (text.reverse.takeWhile (· == 79)).length

/-- One of the reads covers the answer up to the end of an `OK`, which stands behind
an even number of further letters `O`. -/
def CoversOk (selects : List ChatSelect) (reply : List UInt8) : Prop :=
  ∃ pre post octets, reply = pre ++ (bytes "OK" ++ post) ∧ lastOs pre % 2 = 0 ∧
    .read octets ∈ selects ∧ pre.length + 2 ≤ octets.length

theorem occurrences_pos {needle haystack : List UInt8} :
    0 < occurrences needle haystack ↔ needle <:+: haystack := by
  rw [occurrences, countP_pos_iff, infix_iff_prefix_suffix]
  constructor
  · rintro ⟨t, hmem, hbegins⟩
    exact ⟨t, isPrefixOf_iff_prefix.mp hbegins, (mem_tails _ _).mp hmem⟩
  · rintro ⟨t, hbegins, hsuffix⟩
    exact ⟨t, (mem_tails _ _).mpr hsuffix, isPrefixOf_iff_prefix.mpr hbegins⟩

theorem word_ready : Word (bytes "+CMUX: READY") := ⟨by decide, by decide⟩

theorem word_error : Word (bytes "ERROR") := ⟨by decide, by decide⟩

/-! ## Searching for `OK` -/

theorem lastOs_concat (text : List UInt8) (b : UInt8) :
    lastOs (text ++ [b]) = if b = 79 then lastOs text + 1 else 0 := by
  unfold lastOs
  rw [reverse_append, reverse_singleton, singleton_append]
  by_cases hb : b = 79
  · rw [if_pos hb, hb]
    rfl
  · rw [if_neg hb, takeWhile_cons, if_neg (mt beq_iff_eq.mp hb)]
    rfl

/-- Every `O` turns the number of letters seen around, and any other letter sets it
back, unless it is the `K`. -/
theorem restart_ok (seen : List UInt8) {b : UInt8} (h : ¬ (lastOs seen % 2 = 1 ∧ b = 75)) :
    restart (bytes "OK") (lastOs seen % 2) b = lastOs (seen ++ [b]) % 2 := by
  rw [lastOs_concat, restart]
  rcases Nat.mod_two_eq_zero_or_one (lastOs seen) with heven | hodd
  · rw [heven]
    by_cases hb : b = 79
    · rw [if_pos (by rw [hb]; rfl), if_pos hb]
      omega
    · have ho : ¬ letterAt (bytes "OK") 0 = b := fun hletter : (79 : UInt8) = b => hb hletter.symm
      rw [if_neg ho, if_neg hb]
  · have hk : ¬ letterAt (bytes "OK") 1 = b := fun hletter : (75 : UInt8) = b =>
      h ⟨hodd, hletter.symm⟩
    rw [hodd, if_neg hk]
    split <;> omega

/-- Behind `seen`, an `OK` is found that ends there and begins at an even distance. -/
theorem memstrLoop_ok (seen rest : List UInt8) :
    memstrLoop (bytes "OK") (lastOs seen % 2) rest = true ↔
      ∃ pre post, seen ++ rest = pre ++ (bytes "OK" ++ post) ∧ lastOs pre % 2 = 0 ∧
        seen.length < pre.length + 2 := by
  induction rest generalizing seen with
  | nil =>
    constructor
    · intro hfound
      cases hfound
    · rintro ⟨pre, post, hsplit, -, hlt⟩
      have hlength := congrArg length hsplit
      simp only [length_append, length_nil] at hlength
      have htwo : (bytes "OK").length = 2 := rfl
      omega
  | cons b rest ih =>
    have hlt : lastOs seen % 2 < (bytes "OK").length := Nat.mod_lt _ (by decide)
    rw [word_ok.memstrLoop_cons hlt, append_cons]
    by_cases hk : lastOs seen % 2 = 1 ∧ b = 75
    · -- the `K` behind an odd number of letters `O`
      obtain ⟨hodd, rfl⟩ := hk
      have hseen : seen ≠ [] := by
        rintro rfl
        cases hodd
      have hsplit := dropLast_append_getLast hseen
      have hlast := lastOs_concat seen.dropLast (seen.getLast hseen)
      rw [hsplit] at hlast
      have ho : seen.getLast hseen = 79 := by
        refine Classical.byContradiction fun hne => ?_
        rw [if_neg hne] at hlast
        omega
      rw [if_pos ho] at hlast
      rw [ho] at hsplit
      rw [hodd]
      refine iff_of_true rfl ⟨seen.dropLast, rest, ?_, by omega, ?_⟩
      · rw [← hsplit, dropLast_concat, append_assoc, append_assoc]
        rfl
      · have hlength := congrArg length hsplit
        rw [length_append, length_singleton] at hlength
        omega
    · have hnot : ¬ restart (bytes "OK") (lastOs seen % 2) b = (bytes "OK").length := by
        rw [restart_ok seen hk]
        exact Nat.ne_of_lt (Nat.mod_lt _ (by decide))
      rw [decide_eq_false hnot, Bool.false_or, restart_ok seen hk, ih (seen ++ [b])]
      refine exists_congr fun pre => exists_congr fun post => and_congr_right fun hsplit =>
        and_congr_right fun heven => ?_
      rw [length_append, length_singleton]
      refine ⟨Nat.lt_of_succ_lt, fun hle => Nat.lt_of_le_of_ne hle fun hend => hk ?_⟩
      -- an `OK` that ends here has an odd number of letters `O`
      have hwhole : seen ++ [b] = pre ++ [79] ++ [75] := by
        rw [← append_assoc pre] at hsplit
        refine (append_inj hsplit ?_).1.trans (append_assoc pre [79] [75]).symm
        rw [length_append, length_append]
        exact hend
      obtain ⟨hseen, hb⟩ := append_inj' hwhole rfl
      have hrun := lastOs_concat pre 79
      rw [← hseen, if_pos rfl] at hrun
      exact ⟨by omega, (cons.inj hb).1⟩

/-! ## One read -/

variable {buf : Gsm0710Buffer} {text reply : List UInt8}

/-- What the buffer holds stands at the front of the array. -/
theorem bootData_take (hreadp : buf.ring.readp = 0) {n : Nat}
    (hn : n ≤ gsm0710BufferLength buf) : (bootData buf).take n = buf.unread.take n := by
  have hsize : n ≤ gsm0710BufferSize := Nat.le_trans hn buf.ring.datacount_le
  have hn' : n ≤ buf.ring.datacount := hn
  refine ext_getElem ?_ fun i hi _ => ?_
  · rw [length_take, length_take, Gsm0710Buffer.unread, Ring.contents_length, bootData,
      length_map, length_range]
    omega
  · rw [length_take] at hi
    have hcell : (0 + i) % gsm0710BufferSize = i := by
      rw [Nat.zero_add]
      exact Nat.mod_eq_of_lt (by omega)
    rw [getElem_take, getElem_take]
    simp only [Gsm0710Buffer.unread, Ring.contents_getElem, hreadp, hcell, bootData,
      getElem_map, getElem_range]

/-- The buffer holds a beginning of the answer, from the first cell on. -/
structure Holds (buf : Gsm0710Buffer) (text : List UInt8) : Prop where
  readp : buf.ring.readp = 0
  unread : buf.unread = text

theorem Holds.write {octets : List UInt8} (h : Holds buf text)
    (hfits : (text ++ octets).length ≤ gsm0710BufferSize) :
    Holds (gsm0710BufferWrite buf octets) (text ++ octets) := by
  refine ⟨h.readp, ?_⟩
  rw [unread_write, h.unread]
  have hcount : buf.ring.datacount = text.length := by
    rw [← Ring.contents_length, ← h.unread, Gsm0710Buffer.unread]
  rw [length_append] at hfits
  rw [gsm0710BufferFree, hcount]
  omega

theorem Holds.length (h : Holds buf text) : gsm0710BufferLength buf = text.length := by
  rw [gsm0710BufferLength, ← Ring.contents_length, ← h.unread, Gsm0710Buffer.unread]

/-- A search of the array is a search of what is stored. -/
theorem Holds.memstr {needle : List UInt8} (h : Holds buf text) (hword : Word needle) {n : Nat}
    (hn : n ≤ text.length) : Mux.memstr (bootData buf) n needle = Mux.memstr text n needle := by
  rw [hword.memstr_eq, hword.memstr_eq, bootData_take h.readp (by rwa [h.length]), h.unread]

/-- What is not in the answer is not found in a beginning of it. -/
theorem Holds.not_found {needle : List UInt8} (h : Holds buf text) (hword : Word needle)
    (hbegins : text <+: reply) (hnone : ¬ needle <:+: reply) {n : Nat} (hn : n ≤ text.length) :
    Mux.memstr (bootData buf) n needle = false := by
  rw [h.memstr hword hn, Bool.eq_false_iff]
  intro hfound
  have hkept : text.take n <+: text := List.take_prefix n text
  have hin := (hword.infix_of_memstr hfound).trans hkept.isInfix
  exact hnone (hin.trans hbegins.isInfix)

/-- A turn of the loop with octets of an answer without `+CMUX: READY`. -/
theorem chatCmuxLoop_read {octets : List UInt8} {selects : List ChatSelect} {checkMuxFlag : Bool}
    (h : Holds buf text) (hreply : text ++ octets <+: reply)
    (hlength : reply.length ≤ gsm0710BufferSize) (hready : ¬ bytes "+CMUX: READY" <:+: reply) :
    (chatCmuxLoop (.read octets :: selects) checkMuxFlag buf).1
      = if Mux.memstr (text ++ octets) octets.length (bytes "OK") then 0
        else if Mux.memstr (text ++ octets) (text ++ octets).length (bytes "ERROR") then -1
        else (chatCmuxLoop selects checkMuxFlag (gsm0710BufferWrite buf octets)).1 := by
  have hfits : (text ++ octets).length ≤ gsm0710BufferSize :=
    Nat.le_trans hreply.length_le hlength
  have hstored := h.write hfits
  have hle : octets.length ≤ (text ++ octets).length := by
    rw [length_append]
    omega
  rw [chatCmuxLoop, hstored.length]
  simp only [hstored.memstr word_ok hle, hstored.memstr word_error (Nat.le_refl _),
    hstored.not_found word_ready hreply hready (Nat.le_refl _), Bool.false_eq_true, if_false]
  split
  · rfl
  · split <;> rfl

/-! ## The whole answer -/

theorem delivers_cons {s : ChatSelect} {selects : List ChatSelect} :
    delivers (s :: selects) ↔
      (s = .eintr ∨ ∃ octets, s = .read octets) ∧ delivers selects :=
  forall_mem_cons

/-- Without an `OK` in it, an answer is an error sooner or later. -/
theorem chatCmuxLoop_error (hlength : reply.length ≤ gsm0710BufferSize)
    (hready : ¬ bytes "+CMUX: READY" <:+: reply) (hok : ¬ bytes "OK" <:+: reply)
    (selects : List ChatSelect) (checkMuxFlag : Bool) (buf : Gsm0710Buffer) (text : List UInt8)
    (hdelivers : delivers selects) (hholds : Holds buf text)
    (hreply : text ++ received selects = reply) :
    (chatCmuxLoop selects checkMuxFlag buf).1 = -1 := by
  induction selects generalizing checkMuxFlag buf text with
  | nil => rfl
  | cons s selects ih =>
    obtain ⟨rfl | ⟨octets, rfl⟩, hrest⟩ := delivers_cons.mp hdelivers
    · exact ih checkMuxFlag buf text hrest hholds hreply
    · have hreply' : text ++ octets ++ received selects = reply := by
        rw [append_assoc]
        exact hreply
      have hbegins : text ++ octets <+: reply := ⟨_, hreply'⟩
      have hstored := hholds.write (Nat.le_trans hbegins.length_le hlength)
      have hmiss : Mux.memstr (text ++ octets) octets.length (bytes "OK") = false := by
        have hle : octets.length ≤ (text ++ octets).length := by
          rw [length_append]
          omega
        rw [← hstored.memstr word_ok hle]
        exact hstored.not_found word_ok hbegins hok hle
      rw [chatCmuxLoop_read hholds hbegins hlength hready, hmiss, if_neg Bool.false_ne_true]
      split
      · rfl
      · exact ih checkMuxFlag _ _ hrest hstored hreply'

/-- With no `ERROR` in it, an answer gives 0 if one of the searches for `OK` over its
beginning succeeds. -/
theorem chatCmuxLoop_ok (hlength : reply.length ≤ gsm0710BufferSize)
    (hready : ¬ bytes "+CMUX: READY" <:+: reply) (herror : ¬ bytes "ERROR" <:+: reply)
    (selects : List ChatSelect) (checkMuxFlag : Bool) (buf : Gsm0710Buffer) (text : List UInt8)
    (hdelivers : delivers selects) (hholds : Holds buf text)
    (hreply : text ++ received selects = reply) :
    (chatCmuxLoop selects checkMuxFlag buf).1 = 0 ↔
      ∃ octets, .read octets ∈ selects ∧ Mux.memstr reply octets.length (bytes "OK") = true := by
  induction selects generalizing checkMuxFlag buf text with
  | nil => simp [chatCmuxLoop]
  | cons s selects ih =>
    obtain ⟨rfl | ⟨next, rfl⟩, hrest⟩ := delivers_cons.mp hdelivers
    · refine (ih checkMuxFlag buf text hrest hholds hreply).trans ?_
      simp
    · have hreply' : text ++ next ++ received selects = reply := by
        rw [append_assoc]
        exact hreply
      have hbegins : text ++ next <+: reply := ⟨_, hreply'⟩
      have hstored := hholds.write (Nat.le_trans hbegins.length_le hlength)
      have hmiss : Mux.memstr (text ++ next) (text ++ next).length (bytes "ERROR") = false := by
        rw [← hstored.memstr word_error (Nat.le_refl _)]
        exact hstored.not_found word_error hbegins herror (Nat.le_refl _)
      -- the search goes over the beginning of the answer
      have hfront : Mux.memstr (text ++ next) next.length (bytes "OK")
          = Mux.memstr reply next.length (bytes "OK") := by
        have hle : next.length ≤ (text ++ next).length := by
          rw [length_append]
          omega
        rw [word_ok.memstr_eq, word_ok.memstr_eq, ← hreply', take_append_of_le_length hle]
      rw [chatCmuxLoop_read hholds hbegins hlength hready, hmiss, hfront,
        if_neg Bool.false_ne_true]
      by_cases hfound : Mux.memstr reply next.length (bytes "OK") = true
      · rw [if_pos hfound]
        exact iff_of_true rfl ⟨next, mem_cons_self, hfound⟩
      · rw [if_neg hfound, ih checkMuxFlag _ _ hrest hstored hreply']
        refine exists_congr fun octets => ?_
        rw [mem_cons, or_and_right]
        refine (or_iff_right ?_).symm
        rintro ⟨hthis, hthere⟩
        cases hthis
        exact hfound hthere

/-- A search of the beginning of an answer. -/
theorem memstr_ok_iff (n : Nat) : Mux.memstr reply n (bytes "OK") = true ↔
    ∃ pre post, reply = pre ++ (bytes "OK" ++ post) ∧ lastOs pre % 2 = 0 ∧ pre.length + 2 ≤ n := by
  have htwo : (bytes "OK").length = 2 := rfl
  rw [word_ok.memstr_eq]
  refine (memstrLoop_ok [] (reply.take n)).trans ⟨?_, ?_⟩
  · rintro ⟨pre, post, hsplit, heven, -⟩
    refine ⟨pre, post ++ reply.drop n, ?_, heven, ?_⟩
    · rw [← append_assoc (bytes "OK"), ← append_assoc, ← hsplit]
      exact (take_append_drop n reply).symm
    · have hlength := congrArg length hsplit
      rw [length_append, length_append, length_append, length_take, htwo, length_nil] at hlength
      omega
  · rintro ⟨pre, post, hsplit, heven, hle⟩
    refine ⟨pre, post.take (n - pre.length - 2), ?_, heven, by rw [length_nil]; omega⟩
    rw [nil_append, hsplit, take_append, take_append, htwo, take_of_length_le (by omega),
      take_of_length_le (by omega)]

/-- **`chatCmux`.** Whatever the pieces of an answer with one `OK` or one
`ERROR`, and no `+CMUX: READY`, the result is 0 for `OK` and -1 for `ERROR`
exactly if one of the reads covers the `OK`. -/
theorem chatCmux_result {cmd reply : List UInt8} {writes : List ChatWrite}
    {selects : List ChatSelect} {buf : Gsm0710Buffer} (hsent : writeChat cmd writes = true)
    (hempty : EmptyBoot buf) (hdelivers : delivers selects) (hreply : received selects = reply)
    (hlength : reply.length ≤ 1024) (hready : occurrences (bytes "+CMUX: READY") reply = 0)
    (hone : (occurrences (bytes "OK") reply = 1 ∧ occurrences (bytes "ERROR") reply = 0) ∨
      (occurrences (bytes "OK") reply = 0 ∧ occurrences (bytes "ERROR") reply = 1)) :
    (chatCmux cmd writes selects buf).1 = (if occurrences (bytes "OK") reply = 1 then 0 else -1) ↔
      (occurrences (bytes "OK") reply = 1 → CoversOk selects reply) := by
  have hnone : ∀ {needle : List UInt8}, occurrences needle reply = 0 → ¬ needle <:+: reply := by
    intro needle hzero hin
    exact Nat.ne_of_gt (occurrences_pos.mpr hin) hzero
  have hfits : reply.length ≤ gsm0710BufferSize := Nat.le_trans hlength (by decide)
  have hholds : Holds buf [] := ⟨hempty.1, Ring.contents_eq_nil.mpr hempty.2⟩
  rw [chatCmux, if_pos hsent]
  rcases hone with ⟨hok, herror⟩ | ⟨hok, -⟩
  · rw [if_pos hok, chatCmuxLoop_ok hfits (hnone hready) (hnone herror) selects false buf []
      hdelivers hholds hreply]
    simp only [hok, true_imp_iff, memstr_ok_iff, CoversOk]
    constructor
    · rintro ⟨octets, hmem, pre, post, hsplit, heven, hlong⟩
      exact ⟨pre, post, octets, hsplit, heven, hmem, hlong⟩
    · rintro ⟨pre, post, octets, hsplit, heven, hmem, hlong⟩
      exact ⟨octets, hmem, pre, post, hsplit, heven, hlong⟩
  · rw [if_neg (by omega)]
    refine iff_of_true ?_ fun hone => absurd hone (by omega)
    exact chatCmuxLoop_error hfits (hnone hready) (hnone hok) selects false buf [] hdelivers
      hholds hreply

/-- An `OK` behind two more letters `O`, in one read behind an interruption. -/
theorem chatCmux_result_ok :
    occurrences (bytes "OK") (bytes "OOOK") = 1 ∧
      (chatCmux (bytes "AT+CMUX=0") [] [.eintr, .read (bytes "OOOK")]
        (gsm0710BufferInit ⟨0, gsm0710BufferSize_pos⟩)).1 = 0 := by
  have hok : occurrences (bytes "OK") (bytes "OOOK") = 1 := by decide
  have hresult := @chatCmux_result (bytes "AT+CMUX=0") (bytes "OOOK") []
    [.eintr, .read (bytes "OOOK")] (gsm0710BufferInit ⟨0, gsm0710BufferSize_pos⟩)
    rfl ⟨rfl, rfl⟩ ?_ rfl (by decide) (by decide) (.inl ⟨hok, by decide⟩)
  · rw [if_pos hok] at hresult
    refine ⟨hok, hresult.mpr fun _ => ⟨bytes "OO", [], bytes "OOOK", ?_⟩⟩
    exact ⟨by decide, by decide, mem_cons_of_mem _ mem_cons_self, by decide⟩
  · intro s hs
    simp only [mem_cons, not_mem_nil, or_false] at hs
    rcases hs with rfl | rfl
    · exact .inl rfl
    · exact .inr ⟨_, rfl⟩

/-- The same answer in two reads of three octets: the first ends with the `O`,
and the second has the search stop there again. -/
theorem chunking_matters :
    occurrences (bytes "OK") (bytes "\r\nOK\r\n") = 1 ∧
      occurrences (bytes "ERROR") (bytes "\r\nOK\r\n") = 0 ∧
      occurrences (bytes "+CMUX: READY") (bytes "\r\nOK\r\n") = 0 ∧
      received [.read (bytes "\r\nO"), .read (bytes "K\r\n")] = bytes "\r\nOK\r\n" ∧
      (chatCmux (bytes "AT+CMUX=0") [] [.read (bytes "\r\nOK\r\n")]
        (gsm0710BufferInit ⟨0, gsm0710BufferSize_pos⟩)).1 = 0 ∧
      (chatCmux (bytes "AT+CMUX=0") [] [.read (bytes "\r\nO"), .read (bytes "K\r\n")]
        (gsm0710BufferInit ⟨0, gsm0710BufferSize_pos⟩)).1 = -1 := by
  decide +kernel

end Arale.Mux
