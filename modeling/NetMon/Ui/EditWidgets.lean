import NetMon.Lib.Inet
import NetMon.Ui.Settings

/-!
# The editing widgets

`ui_edit_widgets.c`: an address is edited with four rollers, a number with a button on either side.
LVGL's rollers are a parameter: of an option that there is, the index that was selected is read
back.

An editor that is created with the text of another shows the same address
(`uiCreateIpEditor_getValue`), and no clicks take a stepper's value out of the range it was in.
-/

namespace NetMon.Ui

open NetMon.Lib NetMon.Core NetMon.Net

/-! ## Addresses -/

/-- LVGL's roller with the options `0` to `255`: the option a selection shows. -/
structure LvRoller where
  selected : UInt16 → UInt8
  selected_octet : ∀ b : UInt8, selected b.toUInt16 = b

/-- `lv_roller_set_selected` of an `int`, for roller `i` of the four; a number that was not read
is zero. -/
def setOctet (roller : LvRoller) (octets : List Int) (i : Nat) : UInt8 :=
  roller.selected (UInt16.ofInt (octets[i]?.getD 0))

/-- `ui_create_ip_editor` -/
def uiCreateIpEditor (roller : LvRoller) (initialIp : CStr) : IpEditor :=
  let octets := scanDotted 4 initialIp.bytes
  #v[setOctet roller octets 0, setOctet roller octets 1, setOctet roller octets 2,
    setOctet roller octets 3]

theorem setOctet_byte (roller : LvRoller) {octets : List Int} {i : Nat} {b : UInt8}
    (h : octets[i]? = some (b.toNat : Int)) : setOctet roller octets i = b := by
  have hbyte : UInt16.ofInt (b.toNat : Int) = b.toUInt16 := by
    have hlt := b.toNat_lt
    rw [← UInt16.toNat_inj, UInt16.ofInt, UInt16.toNat_ofNat', UInt8.toNat_toUInt16]
    omega
  rw [setOctet, h, Option.getD_some, hbyte, roller.selected_octet]

/-- **Round trip.** An editor that is created with the text of another shows the same address. -/
theorem uiCreateIpEditor_getValue (roller : LvRoller) (e : IpEditor) :
    uiCreateIpEditor roller (uiIpEditorGetValue e) = e := by
  have hscan : scanDotted 4 (uiIpEditorGetValue e).bytes =
      [(e[0].toNat : Int), e[1].toNat, e[2].toNat, e[3].toNat] := by
    have hsmall : ∀ n ∈ [e[0].toNat, e[1].toNat, e[2].toNat, e[3].toNat], n < 2 ^ 31 := by
      simp only [List.forall_mem_cons]
      exact ⟨e[0].toNat_lt.trans (by decide), e[1].toNat_lt.trans (by decide),
        e[2].toNat_lt.trans (by decide), e[3].toNat_lt.trans (by decide), List.forall_mem_nil _⟩
    rw [uiIpEditorGetValue_bytes]
    exact scanDotted_dottedText hsmall
  have h0 := setOctet_byte roller (congrArg (·[0]?) hscan)
  have h1 := setOctet_byte roller (congrArg (·[1]?) hscan)
  have h2 := setOctet_byte roller (congrArg (·[2]?) hscan)
  have h3 := setOctet_byte roller (congrArg (·[3]?) hscan)
  rw [uiCreateIpEditor, h0, h1, h2, h3]
  apply Vector.ext
  intro i hi
  have hcases : i = 0 ∨ i = 1 ∨ i = 2 ∨ i = 3 := by omega
  rcases hcases with rfl | rfl | rfl | rfl <;> rfl

/-! ## Numbers -/

/-- `stepper_data_t`; the format is `%d` and a unit. -/
structure Stepper where
  value : Int
  min : Int
  max : Int
  step : Int
  unit : CStr
  label : CStr

def stepperUpdateLabel (sd : Stepper) : Stepper :=
  { sd with label := (CharArray.copy 32 (.lit s!"{sd.value}" ++ sd.unit)).str }

def stepperMinusCb (sd : Stepper) : Stepper :=
  let value := sd.value - sd.step
  stepperUpdateLabel { sd with value := if value < sd.min then sd.min else value }

def stepperPlusCb (sd : Stepper) : Stepper :=
  let value := sd.value + sd.step
  stepperUpdateLabel { sd with value := if value > sd.max then sd.max else value }

def uiCreateStepper (min max step initial : Int) (unit : CStr) : Stepper :=
  stepperUpdateLabel
    { value := initial, min := min, max := max, step := step, unit := unit, label := .empty }

namespace Stepper

/-- The label shows the value, the value is within bounds that the range is in, and a step beyond
the bounds is still an `int`. -/
structure Within (lo hi : Int) (sd : Stepper) : Prop where
  label : sd.label = (CharArray.copy 32 (.lit s!"{sd.value}" ++ sd.unit)).str
  step : 0 ≤ sd.step
  int_low : -2147483648 ≤ lo - sd.step
  int_high : hi + sd.step ≤ 2147483647
  low : lo ≤ sd.value
  high : sd.value ≤ hi
  min : lo ≤ sd.min
  max : sd.max ≤ hi
  range : sd.min ≤ sd.max

variable {lo hi : Int} {sd : Stepper}

/-- Neither press overflows. -/
theorem Within.press (h : sd.Within lo hi) :
    -2147483648 ≤ sd.value - sd.step ∧ sd.value + sd.step ≤ 2147483647 :=
  ⟨h.int_low.trans (Int.sub_le_sub_right h.low _),
    (Int.add_le_add_right h.high _).trans h.int_high⟩

theorem within_minus (h : sd.Within lo hi) : (stepperMinusCb sd).Within lo hi := by
  obtain ⟨-, hstep, hint, hint', hlow, hhigh, hmin, hmax, hrange⟩ := h
  refine ⟨rfl, hstep, hint, hint', ?_, ?_, hmin, hmax, hrange⟩
  all_goals
    simp only [stepperMinusCb, stepperUpdateLabel]
    split <;> omega

theorem within_plus (h : sd.Within lo hi) : (stepperPlusCb sd).Within lo hi := by
  obtain ⟨-, hstep, hint, hint', hlow, hhigh, hmin, hmax, hrange⟩ := h
  refine ⟨rfl, hstep, hint, hint', ?_, ?_, hmin, hmax, hrange⟩
  all_goals
    simp only [stepperPlusCb, stepperUpdateLabel]
    split <;> omega

/-- A stepper is created with a value and a range that are within the bounds. -/
theorem within_create {min max step initial : Int} (hstep : 0 ≤ step) (hrange : min ≤ max)
    (hint : -2147483648 ≤ lo - step) (hint' : hi + step ≤ 2147483647) (hmin : lo ≤ min)
    (hmax : max ≤ hi) (hlow : lo ≤ initial) (hhigh : initial ≤ hi) (unit : CStr) :
    (uiCreateStepper min max step initial unit).Within lo hi :=
  ⟨rfl, hstep, hint, hint', hlow, hhigh, hmin, hmax, hrange⟩

end Stepper

end NetMon.Ui
