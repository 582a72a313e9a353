import Arale.Mux.Session

/-!
# `handle_command`: what the modem asks on the control channel

The information field of a frame on channel 0 is a command or the answer to
one: a type field, a length field and a value. Both fields go on up to the
first octet with the E/A bit set. `handle_command` scans them with two loops
over one index. It answers a command it knows by sending it back with the C/R
bit clear, and any other one by NSC (not supported) with the type field of the
command.

Mirroring notes:
- The index `i` goes through both loops; a field without an end leaves it
  one behind the data, and `type_length` counts that octet too.
- Every read of `frame->data` is a `readData`, which fails outside the data.
- The value of the length field is only logged, so it is not computed here.
- `calloc` says whether there is memory for an answer. Without it the command
  is acknowledged like a known one.
- Stopping and restarting the output of a PTY (`TCXONC`) is left out: nothing
  here looks at it.

> `handleCommand_cons`: the function with its loops evaluated.
> `nsc_answer`: only the data is read and an unknown command is answered by
> its type field, exactly if that field ends inside the data after at most 127
> octets or there is no memory for an answer.

Without that end the answer takes the octet behind the data along, and the
length octet has no room for more than 127: `nsc_overrun`.
-/

namespace Arale.Mux

open List

/-- What goes wrong on the way of a received frame: an assertion, an index
outside `channellist[]`, a read of `frame->data` outside the data, and
whatever `write_frame` leaves undefined. -/
inductive ReceiveFault where
  | assert (index : Nat)
  | outOfTable
  | readOutside (i : Nat)
  | writeFrame
  deriving DecidableEq, Repr

/-! ## The function -/

/-- `frame->data[i]` -/
def readData (data : List UInt8) (i : Nat) : Except ReceiveFault UInt8 :=
  match data[i]? with
  | some b => .ok b
  | none => .error (.readOutside i)

/-- `for (; frame->length > i && (frame->data[i] & GSM0710_EA) == 0; i++)`, at
most `n` times. The loop over the length field stops at the same places. -/
def scanEa (data : List UInt8) : Nat → Nat → Except ReceiveFault Nat
  | 0, i => .ok i
  | n + 1, i =>
    if data.length > i then do
      let b ← readData data i
      if b &&& gsm0710Ea = 0 then scanEa data n (i + 1) else .ok i
    else .ok i

/-- `while (type_length--) response[i] = frame->data[i - 2]` -/
def copyType (data : List UInt8) : Nat → Nat → Except ReceiveFault (List UInt8)
  | 0, _ => .ok []
  | n + 1, i => do
    let b ← readData data i
    let bs ← copyType data n (i + 1)
    .ok (b :: bs)

/-- The cases of the switch over the type octet. -/
inductive Command where
  | cld | psc | test | pn | msc | unknown
  deriving DecidableEq, Repr

def commandOf (type : UInt8) : Command :=
  if gsm0710CommandIs type gsm0710ControlCld then .cld
  else if gsm0710CommandIs type gsm0710ControlPsc then .psc
  else if gsm0710CommandIs type gsm0710ControlTest then .test
  else if gsm0710CommandIs type gsm0710ControlPn then .pn
  else if gsm0710CommandIs type gsm0710ControlMsc then .msc
  else .unknown

/-- An answer on the control channel. -/
def respond (m : Muxd) (response : List UInt8) : Except ReceiveFault Muxd :=
  match rxThreadWriteFrame m 0 response gsm0710TypeUih with
  | some m' => .ok m'
  | none => .error (if m.channellist.isEmpty then .outOfTable else .writeFrame)

/-- The command goes back with the C/R bit clear. -/
def acknowledge (m : Muxd) (data : List UInt8) : Except ReceiveFault Muxd :=
  respond m (data.modifyHead (· &&& ~~~gsm0710Cr))

/-- The FC bit stops and restarts the sending of an open channel. -/
def modemSignals (m : Muxd) (id : Nat) (signals : UInt8) : Except ReceiveFault Muxd :=
  match m.channellist[id]? with
  | none => .error .outOfTable
  | some channel =>
    if channel.opened then
      .ok (m.setChannel id
        { channel with txFcOff := signals &&& gsm0710SignalFc == gsm0710SignalFc })
    else .ok m

/-- MSC: at least two octets have to follow, the DLCI and the signals. -/
def modemStatus (m : Muxd) (data : List UInt8) (i : Nat) : Except ReceiveFault Muxd :=
  if i + 1 < data.length then do
    let dlci ← readData data i
    let signals ← readData data (i + 1)
    modemSignals m (gsm0710DecodeAddress dlci).toNat signals
  else .ok m

/-- The answer to an unknown command, with a type field of `count` octets. -/
def nscResponse (data : List UInt8) (count : Nat) : Except ReceiveFault (List UInt8) := do
  let octets ← copyType data count 0
  .ok (gsm0710ControlNsc :: UInt8.ofNat (1 ||| count <<< 1) :: octets)

/-- The switch, with `i` behind the length field. -/
def runCommand (m : Muxd) (data : List UInt8) (calloc : Bool) (typeLength i : Nat) :
    Command → Except ReceiveFault Muxd
  | .cld => acknowledge { m with serialState := .peerClosing } data
  | .psc | .test | .pn => acknowledge m data
  | .msc => do
    let m' ← modemStatus m data i
    acknowledge m' data
  | .unknown =>
    if calloc then do
      -- supposes that the type length is less than 128
      let response ← nscResponse data (typeLength &&& 127)
      respond m response
    else acknowledge m data

/-- Handles commands received from the control channel. -/
def handleCommand (m : Muxd) (data : List UInt8) (calloc : Bool) : Except ReceiveFault Muxd :=
  if data.length > 0 then do
    let type ← readData data 0
    let i ← scanEa data data.length 0
    let typeLength := i + 1
    if type &&& gsm0710Cr = gsm0710Cr then do
      let i ← scanEa data (data.length - typeLength) typeLength
      runCommand m data calloc typeLength (i + 1) (commandOf type)
    -- an answer to a command of ours is only logged
    else .ok m
  else .ok m

/-! ## The loops -/

/-- The last octet of a type or length field. -/
def endsField (b : UInt8) : Bool := b &&& gsm0710Ea != 0

theorem readData_of_drop {data rest : List UInt8} {i : Nat} {b : UInt8}
    (h : data.drop i = b :: rest) : readData data i = .ok b := by
  have hget : data[i]? = some b := by
    rw [← List.head?_drop, h]
    rfl
  rw [readData, hget]

/-- The scan stops at the first octet with the E/A bit, or behind the data. -/
theorem scanEa_eq (data : List UInt8) (n i : Nat) (hn : data.length - i = n) :
    scanEa data n i = .ok (i + (data.drop i).findIdx endsField) := by
  induction n generalizing i with
  | zero =>
    have hnil : data.drop i = [] := drop_eq_nil_of_le (by omega)
    rw [scanEa, hnil]
    rfl
  | succ n ih =>
    have hlt : i < data.length := by omega
    have hdrop := drop_eq_getElem_cons hlt
    rw [scanEa, if_pos hlt, readData_of_drop hdrop]
    show (if data[i] &&& gsm0710Ea = 0 then scanEa data n (i + 1) else .ok i) = _
    rw [hdrop, findIdx_cons]
    by_cases hea : data[i] &&& gsm0710Ea = 0
    · have hends : endsField data[i] = false := by simp [endsField, hea]
      rw [if_pos hea, ih (i + 1) (by omega), hends, cond_false, Nat.add_right_comm, Nat.add_assoc]
    · have hends : endsField data[i] = true := by simp [endsField, hea]
      rw [if_neg hea, hends]
      rfl

theorem copyType_eq (data : List UInt8) (n i : Nat) (hle : i + n ≤ data.length) :
    copyType data n i = .ok ((data.drop i).take n) := by
  induction n generalizing i with
  | zero => rw [copyType, take_zero]
  | succ n ih =>
    have hlt : i < data.length := by omega
    have hdrop := drop_eq_getElem_cons hlt
    rw [copyType, readData_of_drop hdrop, ih (i + 1) (by omega), hdrop, take_succ_cons]
    rfl

/-- Where the length field of a command ends. -/
def lengthEnd (data : List UInt8) (typeLength : Nat) : Nat :=
  typeLength + (data.drop typeLength).findIdx endsField

/-- **`handle_command` with its loops evaluated.** -/
theorem handleCommand_cons (m : Muxd) (type : UInt8) (rest : List UInt8) (calloc : Bool) :
    handleCommand m (type :: rest) calloc
      = if type &&& gsm0710Cr = gsm0710Cr then
          runCommand m (type :: rest) calloc ((type :: rest).findIdx endsField + 1)
            (lengthEnd (type :: rest) ((type :: rest).findIdx endsField + 1) + 1) (commandOf type)
        else .ok m := by
  have hpos : (type :: rest).length > 0 := Nat.succ_pos _
  have hread : readData (type :: rest) 0 = .ok type := rfl
  have hscan := scanEa_eq (type :: rest) (type :: rest).length 0 rfl
  rw [drop_zero, Nat.zero_add] at hscan
  rw [handleCommand, if_pos hpos, hread, hscan]
  show (if type &&& gsm0710Cr = gsm0710Cr then _ else _) = _
  rw [scanEa_eq _ _ _ rfl]
  rfl

/-! ## Reads stay inside the data -/

/-- The type field of a command: `t` octets, up to and including the first
with the E/A bit set. -/
def typeField (data : List UInt8) : List UInt8 := data.take (data.findIdx endsField + 1)

/-- A command that `handle_command` does not know. -/
def unsupported : List UInt8 → Bool
  | [] => false
  | type :: _ => type &&& gsm0710Cr == gsm0710Cr && commandOf type == .unknown

/-- The type field ends inside the data, after fewer octets than a length octet
can count. -/
def endsInside (data : List UInt8) : Prop :=
  data.any endsField = true ∧ (typeField data).length < 128

theorem typeField_length {data : List UInt8} (h : data.any endsField = true) :
    (typeField data).length = data.findIdx endsField + 1 ∧
      data.findIdx endsField + 1 ≤ data.length := by
  have hlt : data.findIdx endsField < data.length := by
    obtain ⟨b, hmem, hb⟩ := any_eq_true.mp h
    exact findIdx_lt_length_of_exists ⟨b, hmem, hb⟩
  refine ⟨?_, hlt⟩
  rw [typeField, length_take]
  omega

theorem respond_inside (m : Muxd) (response : List UInt8) (i : Nat) :
    respond m response ≠ .error (.readOutside i) := by
  unfold respond
  split
  · simp
  · split <;> simp

theorem Muxd.setChannel_length (m : Muxd) (id : Nat) (channel : Channel) :
    (m.setChannel id channel).channellist.length = m.channellist.length :=
  length_set

theorem modemStatus_cases (m : Muxd) (data : List UInt8) (i : Nat) :
    (∃ m', modemStatus m data i = .ok m' ∧ m'.channellist.length = m.channellist.length) ∨
      (modemStatus m data i = .error .outOfTable ∧ i + 1 < data.length ∧
        ∃ dlci, data[i]? = some dlci ∧
          m.channellist.length ≤ (gsm0710DecodeAddress dlci).toNat) := by
  unfold modemStatus
  by_cases hlt : i + 1 < data.length
  · have hi : i < data.length := by omega
    rw [if_pos hlt, readData_of_drop (drop_eq_getElem_cons hi),
      readData_of_drop (drop_eq_getElem_cons hlt)]
    show (∃ m', modemSignals m _ _ = .ok m' ∧ _) ∨ (modemSignals m _ _ = .error .outOfTable ∧ _)
    unfold modemSignals
    split
    · next hentry =>
      refine .inr ⟨rfl, hlt, data[i], List.getElem?_eq_getElem hi, ?_⟩
      exact List.getElem?_eq_none_iff.mp hentry
    · split
      · exact .inl ⟨_, rfl, Muxd.setChannel_length m _ _⟩
      · exact .inl ⟨m, rfl, rfl⟩
  · rw [if_neg hlt]
    exact .inl ⟨m, rfl, rfl⟩

theorem modemStatus_inside (m : Muxd) (data : List UInt8) (i j : Nat) :
    modemStatus m data i ≠ .error (.readOutside j) := by
  rcases modemStatus_cases m data i with ⟨m', hok, -⟩ | ⟨hstray, -⟩
  · rw [hok]
    simp
  · rw [hstray]
    simp

/-- The answer to a command whose type field ends inside the data. -/
theorem nscResponse_eq {data : List UInt8} (h : endsInside data) :
    nscResponse data ((data.findIdx endsField + 1) &&& 127)
      = .ok (gsm0710ControlNsc :: UInt8.ofNat (1 ||| (typeField data).length <<< 1)
          :: typeField data) := by
  obtain ⟨hlength, hle⟩ := typeField_length h.1
  have hcount : (data.findIdx endsField + 1) &&& 127 = data.findIdx endsField + 1 := by
    have hmod : (data.findIdx endsField + 1) &&& 127 = (data.findIdx endsField + 1) % 128 :=
      Nat.and_two_pow_sub_one_eq_mod _ 7
    rw [hmod]
    exact Nat.mod_eq_of_lt (hlength ▸ h.2)
  have hcopy := copyType_eq data (data.findIdx endsField + 1) 0 (by omega)
  rw [hcount, nscResponse, hcopy, hlength]
  rfl

/-- Only the answer to an unknown command reads behind the length field. -/
theorem runCommand_inside (m : Muxd) (data : List UInt8) (calloc : Bool) (i : Nat)
    {command : Command} (h : command = .unknown → calloc = true → endsInside data) (j : Nat) :
    runCommand m data calloc (data.findIdx endsField + 1) i command ≠ .error (.readOutside j) := by
  cases command with
  | cld | psc | test | pn => exact respond_inside _ _ j
  | msc =>
    have hinside := modemStatus_inside m data i j
    unfold runCommand
    cases hstatus : modemStatus m data i with
    | error fault =>
      rw [hstatus] at hinside
      exact hinside
    | ok m' => exact respond_inside m' _ j
  | unknown =>
    unfold runCommand
    cases calloc with
    | false => exact respond_inside m _ j
    | true =>
      rw [if_pos rfl, nscResponse_eq (h rfl rfl)]
      exact respond_inside m _ j

/-- A length octet counts up to 127. -/
theorem lengthOctet_decode {n : Nat} (h : n < 128) :
    UInt8.ofNat (1 ||| n <<< 1) &&& gsm0710Ea = gsm0710Ea ∧
      ((UInt8.ofNat (1 ||| n <<< 1) &&& 254) >>> 1).toNat = n := by
  have hall : ∀ n : Fin 128, UInt8.ofNat (1 ||| n.val <<< 1) &&& gsm0710Ea = gsm0710Ea ∧
      ((UInt8.ofNat (1 ||| n.val <<< 1) &&& 254) >>> 1).toNat = n.val := by decide +kernel
  exact hall ⟨n, h⟩

/-- An unknown command with memory for the answer. -/
theorem handleCommand_unsupported (m : Muxd) {data : List UInt8}
    (h : unsupported data = true) :
    handleCommand m data true
      = (nscResponse data ((data.findIdx endsField + 1) &&& 127)).bind (respond m) := by
  cases data with
  | nil => cases h
  | cons type rest =>
    obtain ⟨hcr, hunknown⟩ := Bool.and_eq_true_iff.mp h
    rw [handleCommand_cons, if_pos (eq_of_beq hcr), eq_of_beq hunknown]
    rfl

/-- A copy that goes on behind the data reads there. -/
theorem copyType_outside (data : List UInt8) (n i : Nat) (hle : i ≤ data.length)
    (hgt : data.length < i + n) : copyType data n i = .error (.readOutside data.length) := by
  induction n generalizing i with
  | zero => omega
  | succ n ih =>
    rw [copyType]
    rcases Nat.lt_or_eq_of_le hle with hlt | rfl
    · rw [readData_of_drop (drop_eq_getElem_cons hlt), ih (i + 1) hlt (by omega)]
      rfl
    · rw [readData, List.getElem?_eq_none (Nat.le_refl _)]
      rfl

/-- On an idle line in basic mode, answers of different lengths are told apart. -/
theorem respond_idle {response : List UInt8} (h : response.length ≤ 512) :
    respond (idleMuxd false) response
      = .ok ((idleMuxd false).emit (basicFrame ⟨0, gsm0710TypeUih, response⟩)) := by
  have hsent : rxThreadWriteFrame (idleMuxd false) 0 response gsm0710TypeUih = some _ :=
    @writeFrame_basic (idleMuxd false) ⟨0, gsm0710TypeUih, response⟩ _ rfl rfl rfl rfl
      rfl (Int.ofNat_le.mpr h)
  rw [respond, hsent]

/-- **Commands on the control channel.** `handle_command` reads only the data,
and answers an unknown command by the NSC octet, an octet with the length of the
type field and the type field, exactly for the commands whose type field ends
inside the data after at most 127 octets, and those it has no memory to answer. -/
theorem nsc_answer (data : List UInt8) (calloc : Bool) :
    (∀ m : Muxd, (∀ i, handleCommand m data calloc ≠ .error (.readOutside i)) ∧
      (unsupported data = true → calloc = true →
        ∃ length : UInt8, length &&& gsm0710Ea = gsm0710Ea ∧
          ((length &&& 254) >>> 1).toNat = (typeField data).length ∧
          handleCommand m data calloc
            = respond m (gsm0710ControlNsc :: length :: typeField data))) ↔
      (unsupported data = true → calloc = true → endsInside data) := by
  constructor
  · rintro h hunsupported rfl
    obtain ⟨hinside, hanswer⟩ := h (idleMuxd false)
    obtain ⟨length, -, hdecode, heq⟩ := hanswer hunsupported rfl
    have hsmall : ∀ length : UInt8, ((length &&& 254) >>> 1).toNat < 128 :=
      forall_octet (by decide +kernel)
    have hlt : (typeField data).length < 128 := hdecode ▸ hsmall length
    refine ⟨?_, hlt⟩
    cases hany : data.any endsField with
    | true => rfl
    | false =>
    exfalso
    -- without an end the field is all of the data, and one octet more is copied
    have hidx : data.findIdx endsField = data.length :=
      findIdx_eq_length.mpr fun b hb => by simpa using any_eq_false.mp hany b hb
    have hall : typeField data = data := by rw [typeField, hidx, take_of_length_le (by omega)]
    rw [handleCommand_unsupported _ hunsupported, hidx] at hinside heq
    rw [hall] at hlt heq
    rcases Nat.lt_or_eq_of_le hlt with hfew | hfull
    · refine hinside data.length ?_
      have hcount : (data.length + 1) &&& 127 = data.length + 1 := by
        rw [Nat.and_two_pow_sub_one_eq_mod _ 7]
        exact Nat.mod_eq_of_lt hfew
      rw [hcount, nscResponse, copyType_outside data _ 0 (Nat.zero_le _) (by omega)]
      rfl
    · -- 127 octets and the one behind them count as none
      have hnothing : nscResponse data ((data.length + 1) &&& 127)
          = .ok [gsm0710ControlNsc, 1] := by rw [show data.length + 1 = 128 from hfull]; rfl
      rw [hnothing] at heq
      change respond (idleMuxd false) [gsm0710ControlNsc, 1] = _ at heq
      rw [respond_idle (by decide), respond_idle (by simp only [length_cons]; omega)] at heq
      have hsent := congrArg (fun m => List.length m.sent) (Except.ok.inj heq)
      have hlen : data.length = 127 := Nat.succ.inj hfull
      simp [Muxd.emit, basicFrame, basicHeader, lengthField, hlen] at hsent
  · intro h m
    refine ⟨?_, ?_⟩
    · intro i
      cases data with
      | nil =>
        show Except.ok m ≠ _
        simp
      | cons type rest =>
        rw [handleCommand_cons]
        split
        · next hcr =>
          refine runCommand_inside m _ calloc _ ?_ i
          intro hunknown
          exact h (by simp [unsupported, hcr, hunknown])
        · simp
    · rintro hunsupported rfl
      have hends := h hunsupported rfl
      obtain ⟨hea, hdecode⟩ := lengthOctet_decode hends.2
      refine ⟨_, hea, hdecode, ?_⟩
      rw [handleCommand_unsupported m hunsupported, nscResponse_eq hends]
      rfl

/-- The type field of a single octet without the E/A bit does not end: the
answer reads the octet behind it. A type field of 128 octets is more than a
length octet can say. -/
theorem nsc_overrun :
    (¬ ∀ (m : Muxd) (data : List UInt8) (calloc : Bool) (i : Nat),
        handleCommand m data calloc ≠ .error (.readOutside i)) ∧
      ¬ ∀ (m : Muxd) (data : List UInt8), unsupported data = true → data.any endsField = true →
        ∃ length : UInt8, length &&& gsm0710Ea = gsm0710Ea ∧
          ((length &&& 254) >>> 1).toNat = (typeField data).length ∧
          handleCommand m data true
            = respond m (gsm0710ControlNsc :: length :: typeField data) := by
  constructor
  · intro h
    exact h (idleMuxd false) [0x02] true 1 rfl
  · intro h
    obtain ⟨length, -, hdecode, -⟩ := h (idleMuxd false) (List.replicate 127 0x02 ++ [0x03])
      (by decide) (by decide)
    have hsmall : ∀ length : UInt8, ((length &&& 254) >>> 1).toNat < 128 :=
      forall_octet (by decide +kernel)
    have hlong : (typeField (List.replicate 127 0x02 ++ [0x03])).length = 128 := by
      decide +kernel
    have hlt := hsmall length
    omega

end Arale.Mux
