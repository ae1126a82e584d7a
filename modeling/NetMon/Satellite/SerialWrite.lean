import NetMon.Satellite.Encoder

/-!
# Writing to the serial line

`serial_write` in `sat_serial.c` offers the device what it has not accepted yet, until it has
accepted all of it or an error ends the loop. Whatever the `write`s return, the device is left
with the front of the frame, and the return value says whether that is all of it
(`serialWrite_lossless`). The loop ends once there is a fatal error or the counts add up to the
frame (`serialWrite_isSome_iff`); a device that takes nothing is offered the rest forever.
-/

namespace NetMon.Satellite

open NetMon.Lib

/-- `EINTR` -/
def eintr : Nat := 4

/-- What a `write` returns: up to `n` of the bytes offered are accepted, or none and `errno` is
set. -/
inductive WriteResult where
  | accepted (n : Nat)
  | failed (errno : Nat)
  deriving DecidableEq

/-- An error the loop does not retry. -/
def WriteResult.Fatal : WriteResult → Prop
  | .accepted _ => False
  | .failed errno => errno ≠ eintr

def WriteResult.count : WriteResult → Nat
  | .accepted n => n
  | .failed _ => 0

/-- A call that has returned: its return value, what the device accepted during it, and the
results of its `write`s. -/
structure Written where
  ret : Int32
  device : Bytes
  results : List WriteResult

/-- The last `write` failed, and was not interrupted. -/
def Written.Errored (o : Written) : Prop := ∃ r ∈ o.results.getLast?, r.Fatal

/-- The loop of `serial_write`, given the results of the `write`s to come. `none`: it has used
them up and goes on. -/
def serialWriteLoop (data : Bytes) (written : Nat) (device : Bytes) (used : List WriteResult)
    (results : List WriteResult) : Option Written :=
  if written < data.length then
    match results with
    | [] => none
    | .failed errno :: results =>
      if errno = eintr then serialWriteLoop data written device (used ++ [.failed errno]) results
      else some ⟨-1, device, used ++ [.failed errno]⟩
    | .accepted k :: results =>
      let n := min k (data.length - written)
      serialWriteLoop data (written + n) (device ++ (data.drop written).take n)
        (used ++ [.accepted k]) results
  else some ⟨Int32.ofNat written, device, used⟩

def serialWrite (data : Bytes) (results : List WriteResult) : Option Written :=
  serialWriteLoop data 0 [] [] results

/-! ## The loop -/

/-- The device has the bytes before `written`, and no error has been fatal. -/
structure Transfer (data : Bytes) (written : Nat) (device : Bytes) (used : List WriteResult) :
    Prop where
  device_eq : device = data.take written
  written_le : written ≤ data.length
  retried : ∀ r ∈ used, ¬ r.Fatal

section Loop

variable {data device : Bytes} {written : Nat} {used : List WriteResult}

theorem transfer_start (data : Bytes) : Transfer data 0 [] [] where
  device_eq := List.take_zero.symm
  written_le := Nat.zero_le _
  retried := List.forall_mem_nil _

/-- A `write` offers what is behind `written`, so what it accepts goes behind what the device
has. -/
theorem Transfer.accept (h : Transfer data written device used) (k : Nat) :
    Transfer data (written + min k (data.length - written))
      (device ++ (data.drop written).take (min k (data.length - written)))
      (used ++ [.accepted k]) where
  device_eq := by rw [h.device_eq, List.take_add]
  written_le := by
    have := h.written_le
    omega
  retried := by
    rw [List.forall_mem_append, List.forall_mem_singleton]
    exact ⟨h.retried, id⟩

theorem Transfer.retry (h : Transfer data written device used) :
    Transfer data written device (used ++ [.failed eintr]) where
  device_eq := h.device_eq
  written_le := h.written_le
  retried := by
    rw [List.forall_mem_append, List.forall_mem_singleton]
    exact ⟨h.retried, fun hne => hne rfl⟩

/-- The two ways a call returns. -/
inductive Outcome (data : Bytes) (o : Written) : Prop where
  | whole (ret : o.ret = Int32.ofNat data.length) (device : o.device = data)
      (retried : ∀ r ∈ o.results, ¬ r.Fatal)
  | error (ret : o.ret = -1) (device : o.device <+: data) (short : o.device ≠ data)
      (fatal : o.Errored)

/-- The loop leaves with the whole frame once it asks for no more. -/
theorem Transfer.done (h : Transfer data written device used) (hdone : ¬ written < data.length) :
    Outcome data ⟨Int32.ofNat written, device, used⟩ := by
  have hall : written = data.length := le_antisymm h.written_le (not_lt.mp hdone)
  refine .whole (congrArg Int32.ofNat hall) ?_ h.retried
  rw [h.device_eq, hall, List.take_length]

/-- A fatal error leaves with the bytes before it. -/
theorem Transfer.fail (h : Transfer data written device used) (hmore : written < data.length)
    {errno : Nat} (hfatal : errno ≠ eintr) :
    Outcome data ⟨-1, device, used ++ [.failed errno]⟩ := by
  refine .error rfl ?_ ?_ ⟨.failed errno, List.getLast?_concat, hfatal⟩
  · rw [h.device_eq]
    exact List.take_prefix written data
  · intro heq
    have hlen := congrArg List.length heq
    rw [h.device_eq, List.length_take] at hlen
    omega

theorem serialWriteLoop_outcome (h : Transfer data written device used)
    {results : List WriteResult} {o : Written}
    (ho : serialWriteLoop data written device used results = some o) :
    Outcome data o ∧ o.results <+: used ++ results := by
  induction results generalizing written device used with
  | nil =>
    unfold serialWriteLoop at ho
    split at ho
    · cases ho
    · next hdone =>
      obtain rfl := Option.some.inj ho
      exact ⟨h.done hdone, List.prefix_append used []⟩
  | cons r results ih =>
    unfold serialWriteLoop at ho
    split at ho
    · next hmore =>
      cases r with
      | accepted k =>
        obtain ⟨hout, hpre⟩ := ih (h.accept k) ho
        exact ⟨hout, by rwa [List.append_assoc] at hpre⟩
      | failed errno =>
        simp only at ho
        split at ho
        · next hintr =>
          subst hintr
          obtain ⟨hout, hpre⟩ := ih h.retry ho
          exact ⟨hout, by rwa [List.append_assoc] at hpre⟩
        · next hfatal =>
          obtain rfl := Option.some.inj ho
          exact ⟨h.fail hmore hfatal, results, by rw [List.append_assoc, List.singleton_append]⟩
    · next hdone =>
      obtain rfl := Option.some.inj ho
      exact ⟨h.done hdone, List.prefix_append used _⟩

theorem serialWriteLoop_isSome_iff (h : written ≤ data.length) (results : List WriteResult) :
    (serialWriteLoop data written device used results).isSome ↔
      (∃ r ∈ results, r.Fatal) ∨ data.length ≤ written + (results.map WriteResult.count).sum := by
  induction results generalizing written device used with
  | nil =>
    unfold serialWriteLoop
    by_cases hmore : written < data.length
    · rw [if_pos hmore]
      simpa using hmore
    · rw [if_neg hmore]
      simpa using not_lt.mp hmore
  | cons r results ih =>
    rw [List.map_cons, List.sum_cons, List.exists_mem_cons_iff]
    unfold serialWriteLoop
    by_cases hmore : written < data.length
    · rw [if_pos hmore]
      cases r with
      | accepted k =>
        have hnot : ¬ (WriteResult.accepted k).Fatal := id
        simp only [hnot, false_or, WriteResult.count]
        rw [ih (by omega)]
        apply or_congr Iff.rfl
        omega
      | failed errno =>
        simp only [WriteResult.count, Nat.zero_add]
        by_cases hintr : errno = eintr
        · have hnot : ¬ (WriteResult.failed errno).Fatal := not_not.mpr hintr
          rw [if_pos hintr, ih h]
          simp only [hnot, false_or]
        · have hfatal : (WriteResult.failed errno).Fatal := hintr
          rw [if_neg hintr]
          exact iff_of_true rfl (.inl (.inl hfatal))
    · rw [if_neg hmore]
      simp only [Option.isSome_some, true_iff]
      exact .inr (by omega)

end Loop

/-! ## What a call does -/

/-- The loop comes to an end exactly when an error is fatal or the counts add up to the frame. -/
theorem serialWrite_isSome_iff (data : Bytes) (results : List WriteResult) :
    (serialWrite data results).isSome ↔
      (∃ r ∈ results, r.Fatal) ∨ data.length ≤ (results.map WriteResult.count).sum := by
  rw [serialWrite, serialWriteLoop_isSome_iff (Nat.zero_le _), Nat.zero_add]

theorem int32_ofNat_toInt {n : Nat} (h : n < 2 ^ 31) : (Int32.ofNat n).toInt = n :=
  Int32.toInt_ofNat_of_lt h

/-- What the device has taken of the frame, also where the call goes on. -/
def serialTaken (data : Bytes) (results : List WriteResult) : Bytes :=
  match serialWrite data results with
  | some o => o.device
  | none => data.take (results.map WriteResult.count).sum

/-- A device with room for all of it takes it at once. -/
theorem serialWrite_room {data : Bytes} {n : Nat} (hroom : data.length ≤ n) :
    ∃ o, serialWrite data [.accepted n] = some o ∧ o.device = data ∧
      o.ret = Int32.ofNat data.length := by
  have hends : (serialWrite data [.accepted n]).isSome := by
    rw [serialWrite_isSome_iff]
    exact .inr (by simpa [WriteResult.count] using hroom)
  obtain ⟨o, ho⟩ := Option.isSome_iff_exists.mp hends
  obtain ⟨hout, hpre⟩ := serialWriteLoop_outcome (transfer_start data) ho
  cases hout with
  | whole hret hdevice _ => exact ⟨o, ho, hdevice, hret⟩
  | error _ _ _ hfatal =>
    obtain ⟨r, hr, hfatal⟩ := hfatal
    have hmem := hpre.subset (List.mem_of_getLast? hr)
    rw [List.nil_append, List.mem_singleton] at hmem
    rw [hmem] at hfatal
    exact hfatal.elim

theorem serialTaken_room {data : Bytes} {n : Nat} (hroom : data.length ≤ n) :
    serialTaken data [.accepted n] = data := by
  obtain ⟨o, ho, hdevice, -⟩ := serialWrite_room hroom
  rw [serialTaken, ho]
  exact hdevice

theorem Message.frame_le (m : Message) : m.frame.length ≤ satMaxFrameSize := by
  have := m.fits'
  rw [m.frame_length]
  unfold satMaxFrameSize
  omega

theorem Message.frame_fits (m : Message) : m.frame.length < 2 ^ 31 := by
  rw [m.frame_length]
  have := m.fits'
  omega

/-- The test of `main`: the result is positive exactly when the frame is out. -/
theorem serialWrite_pos_iff (m : Message) {results : List WriteResult} {o : Written}
    (ho : serialWrite m.frame results = some o) : 0 < o.ret.toInt ↔ o.device = m.frame := by
  have hlen := int32_ofNat_toInt m.frame_fits
  have hpos := List.length_pos_iff.mpr m.frame_ne_nil
  cases (serialWriteLoop_outcome (transfer_start m.frame) ho).1 with
  | whole hret hdevice _ =>
    rw [hret, hlen]
    exact iff_of_true (by omega) hdevice
  | error hret _ hshort _ =>
    rw [hret]
    exact iff_of_false (by decide) hshort

end NetMon.Satellite
