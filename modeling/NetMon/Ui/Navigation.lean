import NetMon.Lib.Machine

/-!
# Navigation

`ui_manager.c` builds a screen when it is first shown and keeps it. The builder of the detail
screen sets the index of the shown interface to 0, after `ui_manager_show_iface_detail` has
selected the tapped one. A tap opens the tapped interface exactly when the screen was opened
before or the interface is the first one (`opensTapped_iff`).
-/

namespace NetMon.Ui

open NetMon.Lib

/-- `screen_id_t` -/
inductive ScreenId where
  | status
  | dashboard
  | traffic
  | alerts
  | more
  | ifaceDetail
  | connections
  | settings
  /-- `SCREEN_COUNT` -/
  | count
  deriving DecidableEq

/-- `APP_MAX_INTERFACES` -/
def maxDetailIfaces : Int := 8

/-- The variables of `ui_manager.c`, and `g_iface_idx` of `ui_interface.c`. A screen is built
once, and hidden or not from then on. -/
structure UiManager where
  screenObjs : ScreenId → Bool
  hidden : ScreenId → Bool
  currentScreen : ScreenId
  previousScreen : ScreenId
  menuOpen : Bool
  detailIfaceIdx : Int
  ifaceIdx : Int

/-- The entries of the side menu. -/
def menuEntries : List ScreenId := [.status, .dashboard, .traffic, .alerts, .connections, .settings]

/-! ## The functions -/

/-- `ui_interface_create` -/
def uiInterfaceCreate (u : UiManager) : UiManager := { u with ifaceIdx := 0 }

/-- `ui_interface_set_iface` -/
def uiInterfaceSetIface (ifaceIdx : Int) (u : UiManager) : UiManager :=
  if 0 ≤ ifaceIdx ∧ ifaceIdx < maxDetailIfaces then { u with ifaceIdx := ifaceIdx } else u

def hideAllScreens (u : UiManager) : UiManager :=
  { u with hidden := fun id => if u.screenObjs id then true else u.hidden id }

/-- A new object is not hidden; no builder but the detail screen's touches these variables. -/
def ensureScreenObj (id : ScreenId) (u : UiManager) : UiManager :=
  if u.screenObjs id then u
  else
    let u := { u with
      screenObjs := Function.update u.screenObjs id true
      hidden := Function.update u.hidden id false }
    match id with
    | .ifaceDetail => uiInterfaceCreate u
    | _ => u

def uiManagerShow (screen : ScreenId) (u : UiManager) : UiManager :=
  if screen = .count then u
  else
    let u := { u with previousScreen := u.currentScreen, currentScreen := screen }
    let u := ensureScreenObj screen (hideAllScreens u)
    { u with hidden := Function.update u.hidden screen false }

def uiManagerShowIfaceDetail (ifaceIdx : Int) (u : UiManager) : UiManager :=
  uiManagerShow .ifaceDetail (uiInterfaceSetIface ifaceIdx { u with detailIfaceIdx := ifaceIdx })

def uiManagerBack (u : UiManager) : UiManager := uiManagerShow u.previousScreen u

def menuHide (u : UiManager) : UiManager := { u with menuOpen := false }

def hamburgerBtnCb (u : UiManager) : UiManager := { u with menuOpen := !u.menuOpen }

def menuItemCb (idx : Int) (u : UiManager) : UiManager :=
  match if 0 ≤ idx then menuEntries[idx.toNat]? else none with
  | some screen => uiManagerShow screen (menuHide u)
  | none => u

/-- `ui_manager_init`, on variables that are zero. -/
def uiManagerInit : UiManager :=
  uiManagerShow .status
    { screenObjs := fun _ => false
      hidden := fun _ => false
      currentScreen := .status
      previousScreen := .status
      menuOpen := false
      detailIfaceIdx := 0
      ifaceIdx := 0 }

/-- `main` shows the first screen once more. -/
def uiManagerStart : UiManager := uiManagerShow .status uiManagerInit

inductive NavAction where
  | show (screen : ScreenId)
  | showIfaceDetail (ifaceIdx : Int)
  | back
  | hamburger
  | menuItem (idx : Int)
  | backdrop
  deriving DecidableEq

/-- The manager under its callers. -/
def navigation : Machine UiManager NavAction Unit where
  step u a :=
    match a with
    | .show screen => uiManagerShow screen u
    | .showIfaceDetail ifaceIdx => uiManagerShowIfaceDetail ifaceIdx u
    | .back => uiManagerBack u
    | .hamburger => hamburgerBtnCb u
    | .menuItem idx => menuItemCb idx u
    | .backdrop => menuHide u
  out _ _ := []

/-! ## What a screen change does -/

/-- The screen that is shown and the one behind it are built, and no other is visible. -/
structure NavInv (u : UiManager) : Prop where
  current : u.screenObjs u.currentScreen = true
  previous : u.screenObjs u.previousScreen = true
  visible : ∀ id, u.screenObjs id = true → (u.hidden id = false ↔ id = u.currentScreen)

/-- What building a screen does. -/
theorem ensureScreenObj_spec (id : ScreenId) (u : UiManager) : ∃ hidden, ensureScreenObj id u =
    { u with
      screenObjs := Function.update u.screenObjs id true
      hidden := hidden
      ifaceIdx := if id = .ifaceDetail ∧ u.screenObjs id = false then 0 else u.ifaceIdx } ∧
      ∀ j ≠ id, hidden j = u.hidden j := by
  unfold ensureScreenObj
  cases hbuilt : u.screenObjs id with
  | true =>
    refine ⟨u.hidden, ?_, fun _ _ => rfl⟩
    rw [if_pos rfl, if_neg (by simp), ← hbuilt, Function.update_eq_self]
  | false =>
    refine ⟨Function.update u.hidden id false, ?_, fun j hj => Function.update_of_ne hj _ _⟩
    rw [if_neg (by simp)]
    cases id <;> rfl

/-- What showing a screen does. -/
theorem uiManagerShow_spec {screen : ScreenId} (h : screen ≠ .count) (u : UiManager) :
    ∃ hidden, uiManagerShow screen u = { u with
      screenObjs := Function.update u.screenObjs screen true
      hidden := hidden
      currentScreen := screen
      previousScreen := u.currentScreen
      ifaceIdx := if screen = .ifaceDetail ∧ u.screenObjs screen = false then 0 else u.ifaceIdx } ∧
      hidden screen = false ∧ ∀ j ≠ screen, u.screenObjs j = true → hidden j = true := by
  obtain ⟨hidden, hensure, hkeep⟩ := ensureScreenObj_spec screen
    (hideAllScreens { u with previousScreen := u.currentScreen, currentScreen := screen })
  refine ⟨Function.update hidden screen false, ?_, Function.update_self _ _ _,
    fun j hj hbuilt => ?_⟩
  · unfold uiManagerShow
    rw [if_neg h]
    dsimp only
    rw [hensure]
    rfl
  · rw [Function.update_of_ne hj, hkeep j hj]
    show (if u.screenObjs j then true else u.hidden j) = true
    rw [if_pos hbuilt]

theorem NavInv.show {u : UiManager} (hu : NavInv u) (screen : ScreenId) :
    NavInv (uiManagerShow screen u) := by
  by_cases hcount : screen = .count
  · rw [uiManagerShow, if_pos hcount]
    exact hu
  · obtain ⟨hidden, hshow, hvisible, hothers⟩ := uiManagerShow_spec hcount u
    rw [hshow]
    refine ⟨Function.update_self _ _ _, ?_, fun id hid => ?_⟩
    · by_cases hsame : u.currentScreen = screen
      · exact hsame ▸ Function.update_self _ _ _
      · exact (Function.update_of_ne hsame _ _).trans hu.current
    · by_cases hsame : id = screen
      · exact iff_of_true (hsame ▸ hvisible) hsame
      · have hbuilt : u.screenObjs id = true := (Function.update_of_ne hsame _ _).symm.trans hid
        refine iff_of_false (fun hshown => ?_) hsame
        exact absurd (hothers id hsame hbuilt) (by rw [show hidden id = false from hshown]; decide)

theorem step_navInv (u : UiManager) (a : NavAction) (hu : NavInv u) :
    NavInv (navigation.step u a) := by
  cases a with
  | «show» screen => exact hu.show screen
  | showIfaceDetail i =>
    have hselect : NavInv (uiInterfaceSetIface i { u with detailIfaceIdx := i }) := by
      unfold uiInterfaceSetIface
      split <;> exact ⟨hu.current, hu.previous, hu.visible⟩
    exact hselect.show .ifaceDetail
  | back => exact hu.show u.previousScreen
  | hamburger => exact ⟨hu.current, hu.previous, hu.visible⟩
  | menuItem idx =>
    have hhide : NavInv (menuHide u) := ⟨hu.current, hu.previous, hu.visible⟩
    show NavInv (menuItemCb idx u)
    unfold menuItemCb
    split
    · exact hhide.show _
    · exact hu
  | backdrop => exact ⟨hu.current, hu.previous, hu.visible⟩

theorem uiManagerStart_navInv : NavInv uiManagerStart := by
  have hinit : NavInv uiManagerInit := ⟨rfl, rfl, fun id => by cases id <;> decide⟩
  exact hinit.show .status

/-! ## The detail screen -/

/-- The action asks for the detail screen. -/
def NavAction.OpensDetail (a : NavAction) : Prop :=
  a = .show .ifaceDetail ∨ ∃ i, a = .showIfaceDetail i

instance (a : NavAction) : Decidable a.OpensDetail :=
  match a with
  | .show screen => decidable_of_iff (screen = .ifaceDetail) (by simp [NavAction.OpensDetail])
  | .showIfaceDetail i => isTrue (.inr ⟨i, rfl⟩)
  | .back | .hamburger | .menuItem _ | .backdrop => isFalse (by simp [NavAction.OpensDetail])

theorem uiManagerShow_built (screen : ScreenId) (u : UiManager) :
    (uiManagerShow screen u).screenObjs .ifaceDetail = true ↔
      u.screenObjs .ifaceDetail = true ∨ screen = .ifaceDetail := by
  by_cases hcount : screen = .count
  · rw [uiManagerShow, if_pos hcount, hcount]
    simp
  · obtain ⟨hidden, hshow, -⟩ := uiManagerShow_spec hcount u
    rw [hshow]
    show Function.update u.screenObjs screen true .ifaceDetail = true ↔ _
    by_cases hsame : screen = .ifaceDetail
    · rw [hsame, Function.update_self]
      simp
    · rw [Function.update_of_ne (Ne.symm hsame)]
      simp [hsame]

/-- No way but asking for it builds the detail screen: the back button returns to a screen that
is built, and the menu does not list it. -/
theorem step_built {u : UiManager} (hu : NavInv u) (a : NavAction) :
    (navigation.step u a).screenObjs .ifaceDetail = true ↔
      u.screenObjs .ifaceDetail = true ∨ a.OpensDetail := by
  cases a with
  | «show» screen =>
    exact (uiManagerShow_built screen u).trans (or_congr_right (by simp [NavAction.OpensDetail]))
  | showIfaceDetail i =>
    exact iff_of_true ((uiManagerShow_built _ _).mpr (.inr rfl)) (.inr (.inr ⟨i, rfl⟩))
  | back =>
    have hprevious : u.previousScreen = .ifaceDetail → u.screenObjs .ifaceDetail = true :=
      fun h => h ▸ hu.previous
    exact (uiManagerShow_built _ _).trans
      ((or_iff_left_of_imp hprevious).trans (by simp [NavAction.OpensDetail]))
  | hamburger => simp [NavAction.OpensDetail, navigation, hamburgerBtnCb]
  | menuItem idx =>
    have hentries : ∀ screen ∈ menuEntries, screen ≠ .ifaceDetail := by decide
    show (menuItemCb idx u).screenObjs .ifaceDetail = true ↔ _
    unfold menuItemCb
    split
    · rename_i screen hitem
      have hmem : screen ∈ menuEntries := by
        split at hitem
        · exact List.mem_of_getElem? hitem
        · cases hitem
      rw [uiManagerShow_built, or_iff_left (hentries screen hmem)]
      simp [NavAction.OpensDetail, menuHide]
    · simp [NavAction.OpensDetail]
  | backdrop => simp [NavAction.OpensDetail, navigation, menuHide]

theorem exec_built {u : UiManager} (hu : NavInv u) (actions : List NavAction) :
    (navigation.exec u actions).screenObjs .ifaceDetail = true ↔
      u.screenObjs .ifaceDetail = true ∨ ∃ a ∈ actions, a.OpensDetail := by
  induction actions generalizing u with
  | nil => simp
  | cons a actions ih =>
    rw [Machine.exec_cons, ih (step_navInv u a hu), step_built hu, or_assoc,
      List.exists_mem_cons_iff]

/-- An index `ui_interface_set_iface` takes. -/
def ValidIface (i : Int) : Prop := 0 ≤ i ∧ i < maxDetailIfaces

instance (i : Int) : Decidable (ValidIface i) :=
  inferInstanceAs (Decidable (0 ≤ i ∧ i < maxDetailIfaces))

/-- A tap on an interface selects it, and the builder, if it runs, selects the first one. -/
theorem uiManagerShowIfaceDetail_ifaceIdx {i : Int} (hi : ValidIface i) (u : UiManager) :
    (uiManagerShowIfaceDetail i u).ifaceIdx = if u.screenObjs .ifaceDetail then i else 0 := by
  have hselect : uiInterfaceSetIface i { u with detailIfaceIdx := i } =
      { u with detailIfaceIdx := i, ifaceIdx := i } := if_pos hi
  have hscreen : ScreenId.ifaceDetail ≠ .count := by decide
  obtain ⟨hidden, hshow, -⟩ := uiManagerShow_spec hscreen
    { u with detailIfaceIdx := i, ifaceIdx := i }
  rw [uiManagerShowIfaceDetail, hselect, hshow]
  cases u.screenObjs .ifaceDetail <;> simp

/-- **The tapped interface.** After any navigation a tap on an interface opens the detail screen
on it exactly when that screen has been asked for before, or the interface is the first one. -/
theorem opensTapped_iff (actions : List NavAction) (i : Int) (hi : ValidIface i) :
    (navigation.exec uiManagerStart (actions ++ [.showIfaceDetail i])).ifaceIdx = i ↔
      (∃ a ∈ actions, a.OpensDetail) ∨ i = 0 := by
  have hbuilt := exec_built uiManagerStart_navInv actions
  have hstart : uiManagerStart.screenObjs .ifaceDetail ≠ true := by decide
  rw [or_iff_right hstart] at hbuilt
  rw [Machine.exec_append, ← hbuilt]
  apply (Eq.congr_left (uiManagerShowIfaceDetail_ifaceIdx hi _)).trans
  split
  · rename_i h
    simp [h]
  · rename_i h
    simp [h, eq_comm]

/-- The third interface, tapped after the fourth one. -/
theorem second_tap_opens : ValidIface 2 ∧
    (navigation.exec uiManagerStart
      [.menuItem 1, .showIfaceDetail 3, .back, .showIfaceDetail 2]).ifaceIdx = 2 :=
  ⟨by decide, (opensTapped_iff [.menuItem 1, .showIfaceDetail 3, .back] 2 (by decide)).mpr
    (.inl ⟨.showIfaceDetail 3, by decide, by decide⟩)⟩

/-- The first tap of a run, on the second interface, opens the first one. -/
theorem first_tap_opens_first :
    let idx := (navigation.exec uiManagerStart [.menuItem 1, .showIfaceDetail 1]).ifaceIdx
    ValidIface 1 ∧ idx = 0 ∧ ¬ idx = 1 := by decide

end NetMon.Ui
