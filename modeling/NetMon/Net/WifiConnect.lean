import NetMon.Lib.Printf
import NetMon.Lib.Shell
import NetMon.Net.WifiScan

/-!
# Connecting to a network

`wifi_mgr_connect` writes the name and the password of a network into a command line, between
single quotes. `literal_iff` says for which names and passwords the shell finds them there again.
-/

namespace NetMon.Net

open NetMon.Lib

/-- What a connection changes of `g_wifi_state`, and what a scan uses. -/
structure WifiLink extends WifiState where
  currentSsid : CharArray 64
  connected : Bool

/-- What a call of `wifi_mgr_connect` leaves behind: the state, the commands it ran in order, and
what it returns. -/
structure Connect where
  state : WifiLink
  commands : List CStr
  result : Int

/-! ## The commands -/

/-- `snprintf(cmd, sizeof(cmd), ...)` -/
def command (s : CStr) : CStr := (CharArray.copy 512 s).str

def killCommand : CStr := command (.lit "killall wpa_supplicant 2>/dev/null; sleep 1")

def wpaCommand (ssid password : CStr) (iface : CharArray 16) : CStr :=
  command (.lit "wpa_passphrase '" ++ ssid ++ .lit "' '" ++ password ++ .lit "' > /tmp/wpa_" ++
    iface.str ++ .lit ".conf 2>/dev/null")

def openCommand (ssid : CStr) (iface : CharArray 16) : CStr :=
  command (.lit "printf 'network=\x7b\\n  ssid=\"" ++ ssid ++
    .lit "\"\\n  key_mgmt=NONE\\n\x7d\\n' > /tmp/wpa_" ++ iface.str ++ .lit ".conf")

def supplicantCommand (iface : CharArray 16) : CStr :=
  command (.lit "wpa_supplicant -B -i " ++ iface.str ++ .lit " -c /tmp/wpa_" ++ iface.str ++
    .lit ".conf 2>/dev/null")

def dhcpCommand (iface : CharArray 16) : CStr :=
  command (.lit "udhcpc -i " ++ iface.str ++ .lit " -n -q 2>/dev/null &")

/-- `password && password[0] != '\0'` -/
def keyOf (password : Option CStr) : Option CStr := password.filter (·.bytes ≠ [])

def configCommand (ssid : CStr) (password : Option CStr) (iface : CharArray 16) : CStr :=
  match keyOf password with
  | some key => wpaCommand ssid key iface
  | none => openCommand ssid iface

/-- `wifi_mgr_connect` -/
def wifiMgrConnect (shell : CStr → CmdResult) (s : WifiLink) (ssid password : Option CStr) :
    Connect :=
  if !s.initialized || !s.enabled then ⟨s, [], -1⟩
  else
    match ssid.filter (·.bytes ≠ []) with
    | none => ⟨s, [], -1⟩
    | some ssid =>
      let config := configCommand ssid password s.iface
      let supplicant := supplicantCommand s.iface
      if (keyOf password).isSome ∧ (shell config).status ≠ 0 then ⟨s, [killCommand, config], -1⟩
      else if (shell supplicant).status ≠ 0 then ⟨s, [killCommand, config, supplicant], -1⟩
      else
        { state := { s with currentSsid := .copy 64 ssid, connected := true }
          commands := [killCommand, config, supplicant, dhcpCommand s.iface]
          result := 0 }

/-! ## What the shell should read -/

/-- `/tmp/wpa_%s.conf` -/
def confFile (iface : Bytes) : Bytes := CStr.chars "/tmp/wpa_" ++ (iface ++ CStr.chars ".conf")

/-- The configuration of an open network. -/
def networkBlock (ssid : Bytes) : Bytes :=
  CStr.chars "network=\x7b\n  ssid=\"" ++ (ssid ++ CStr.chars "\"\n  key_mgmt=NONE\n\x7d\n")

/-- The command has the name and the password as its arguments, or prints the block with the name,
into the interface's file, and does nothing else. -/
def Literal (conv : Printf.Conversions) (iface ssid : Bytes) (key : Option CStr) (cmd : CStr) :
    Prop :=
  match key with
  | some key => Shell.parse cmd.bytes = some
    { words := [CStr.chars "wpa_passphrase", ssid, key.bytes]
      redirects := [(1, confFile iface), (2, CStr.chars "/dev/null")] }
  | none => ∃ format, Shell.parse cmd.bytes = some
      { words := [CStr.chars "printf", format], redirects := [(1, confFile iface)] } ∧
    Printf.printf conv format = some (networkBlock ssid)

/-! ## The command lines -/

def wpaLine (ssid password iface : Bytes) : Bytes :=
  CStr.chars "wpa_passphrase " ++ (Shell.quote ssid ++ (CStr.chars " " ++ (Shell.quote password ++
    (CStr.chars " > " ++ (confFile iface ++ CStr.chars " 2>/dev/null")))))

/-- What `printf` is given. -/
def formatOf (ssid : Bytes) : Bytes :=
  CStr.chars "network=\x7b\\n  ssid=\"" ++ (ssid ++ CStr.chars "\"\\n  key_mgmt=NONE\\n\x7d\\n")

def openLine (ssid iface : Bytes) : Bytes :=
  CStr.chars "printf " ++ (Shell.quote (formatOf ssid) ++ (CStr.chars " > " ++ confFile iface))

theorem command_bytes {s : CStr} (h : s.length ≤ 511) : (command s).bytes = s.bytes :=
  congrArg CStr.bytes (CStr.trunc_of_le h)

/-- The buffer is large enough. -/
theorem wpaCommand_bytes (ssid : CharArray 64) (password : CharArray 128) (iface : CharArray 16) :
    (wpaCommand ssid.str password.str iface).bytes =
      wpaLine ssid.bytes password.bytes iface.bytes := by
  have hs := ssid.bytes_length_le
  have hp := password.bytes_length_le
  have hi := iface.bytes_length_le
  have hline : (CStr.lit "wpa_passphrase '" ++ ssid.str ++ CStr.lit "' '" ++ password.str ++
      CStr.lit "' > /tmp/wpa_" ++ iface.str ++ CStr.lit ".conf 2>/dev/null").bytes =
      wpaLine ssid.bytes password.bytes iface.bytes := by
    simp only [CStr.append_bytes]
    rw [CStr.lit_bytes (by decide), CStr.lit_bytes (by decide), CStr.lit_bytes (by decide),
      CStr.lit_bytes (by decide)]
    simp [wpaLine, Shell.quote, confFile, CStr.chars, CharArray.bytes]
  rw [wpaCommand, command_bytes, hline]
  rw [CStr.length, hline]
  simp [wpaLine, Shell.quote, confFile, CStr.chars]
  omega

theorem openCommand_bytes (ssid : CharArray 64) (iface : CharArray 16) :
    (openCommand ssid.str iface).bytes = openLine ssid.bytes iface.bytes := by
  have hs := ssid.bytes_length_le
  have hi := iface.bytes_length_le
  have hline : (CStr.lit "printf 'network=\x7b\\n  ssid=\"" ++ ssid.str ++
      CStr.lit "\"\\n  key_mgmt=NONE\\n\x7d\\n' > /tmp/wpa_" ++ iface.str ++
      CStr.lit ".conf").bytes = openLine ssid.bytes iface.bytes := by
    simp only [CStr.append_bytes]
    rw [CStr.lit_bytes (by decide), CStr.lit_bytes (by decide), CStr.lit_bytes (by decide)]
    simp [openLine, formatOf, Shell.quote, confFile, CStr.chars, CharArray.bytes]
  rw [openCommand, command_bytes, hline]
  rw [CStr.length, hline]
  simp [openLine, formatOf, Shell.quote, confFile, CStr.chars]
  omega

/-! ## The lines as items -/

/-- The items of the interface's file name, if there is no quote in the interface's. -/
def confItems (iface : Bytes) : List Shell.Item := (confFile iface).map Shell.unquoted

def wpaItems (ssid password iface : Bytes) : List Shell.Item :=
  (CStr.chars "wpa_passphrase ").map Shell.unquoted ++ (Shell.singleQuoted ssid ++
    ((CStr.chars " ").map Shell.unquoted ++ (Shell.singleQuoted password ++
      ((CStr.chars " > ").map Shell.unquoted ++
        (confItems iface ++ (CStr.chars " 2>/dev/null").map Shell.unquoted)))))

def openItems (ssid iface : Bytes) : List Shell.Item :=
  (CStr.chars "printf ").map Shell.unquoted ++ (Shell.singleQuoted (formatOf ssid) ++
    ((CStr.chars " > ").map Shell.unquoted ++ confItems iface))

theorem confFile_isQuote {iface : Bytes} (h : iface.any Shell.isQuote = false) :
    (confFile iface).any Shell.isQuote = false := by
  rw [confFile, List.any_append, List.any_append, h]
  rfl

theorem runs_wpaLine {ssid password iface : Bytes} (hssid : 39 ∉ ssid) (hkey : 39 ∉ password)
    (hiface : iface.any Shell.isQuote = false) :
    Shell.lexer.Runs .none (wpaLine ssid password iface) .none (wpaItems ssid password iface) :=
  (Shell.runs_none rfl).trans ((Shell.runs_quote hssid).trans
    ((Shell.runs_none rfl).trans ((Shell.runs_quote hkey).trans
      ((Shell.runs_none rfl).trans ((Shell.runs_none (confFile_isQuote hiface)).trans
        (Shell.runs_none rfl))))))

theorem runs_openLine {ssid iface : Bytes} (hssid : 39 ∉ formatOf ssid)
    (hiface : iface.any Shell.isQuote = false) :
    Shell.lexer.Runs .none (openLine ssid iface) .none (openItems ssid iface) :=
  (Shell.runs_none rfl).trans ((Shell.runs_quote hssid).trans
    ((Shell.runs_none rfl).trans (Shell.runs_none (confFile_isQuote hiface))))

theorem signsOf_confItems (iface : Bytes) :
    Shell.signsOf (confItems iface) = Shell.signsOf (iface.map Shell.unquoted) := by
  have hfront : Shell.signsOf ((CStr.chars "/tmp/wpa_").map Shell.unquoted) = [] := rfl
  have hback : Shell.signsOf ((CStr.chars ".conf").map Shell.unquoted) = [] := rfl
  rw [confItems, confFile, List.map_append, List.map_append, Shell.signsOf_append,
    Shell.signsOf_append, hfront, hback, List.nil_append, List.append_nil]

/-- A blank between words, the quotes, a redirection between blanks, and one without. -/
theorem signsOf_wpaItems (ssid password iface : Bytes) :
    Shell.signsOf (wpaItems ssid password iface) = [32] ++ ([39, 39] ++ ([32] ++ ([39, 39] ++
      ([32, 62, 32] ++ (Shell.signsOf (iface.map Shell.unquoted) ++ [32, 62]))))) := by
  have hname : Shell.signsOf ((CStr.chars "wpa_passphrase ").map Shell.unquoted) = [32] := rfl
  have hblank : Shell.signsOf ((CStr.chars " ").map Shell.unquoted) = [32] := rfl
  have hfile : Shell.signsOf ((CStr.chars " > ").map Shell.unquoted) = [32, 62, 32] := rfl
  have hnull : Shell.signsOf ((CStr.chars " 2>/dev/null").map Shell.unquoted) = [32, 62] := rfl
  simp only [wpaItems, Shell.signsOf_append, Shell.signsOf_singleQuoted, signsOf_confItems, hname,
    hblank, hfile, hnull]

theorem signsOf_openItems (ssid iface : Bytes) : Shell.signsOf (openItems ssid iface) =
    [32] ++ ([39, 39] ++ ([32, 62, 32] ++ Shell.signsOf (iface.map Shell.unquoted))) := by
  have hname : Shell.signsOf ((CStr.chars "printf ").map Shell.unquoted) = [32] := rfl
  have hfile : Shell.signsOf ((CStr.chars " > ").map Shell.unquoted) = [32, 62, 32] := rfl
  simp only [openItems, Shell.signsOf_append, Shell.signsOf_singleQuoted, signsOf_confItems, hname,
    hfile]

/-! ## Literal lines -/

theorem confFile_isPlain {iface : Bytes} (h : ∀ b ∈ iface, Shell.isPlain b = true) :
    ∀ b ∈ confFile iface, Shell.isPlain b = true :=
  List.forall_mem_append.mpr
    ⟨List.all_eq_true.mp rfl, List.forall_mem_append.mpr ⟨h, List.all_eq_true.mp rfl⟩⟩

theorem confItems_word {iface : Bytes} (h : ∀ b ∈ iface, Shell.isPlain b = true) :
    Shell.IsWord (confItems iface) (confFile iface) := .plain (confFile_isPlain h) (by decide)

/-- ` > ` behind a word -/
theorem splits_redirect : Shell.Splits [Shell.unquoted 62, Shell.unquoted 32] [.redirect []] :=
  (Shell.Splits.redirect (List.forall_mem_nil _)).append .blank

theorem splits_quoted (v : Bytes) :
    Shell.Splits (Shell.singleQuoted v ++ [Shell.unquoted 32]) [.word v] :=
  .word (.singleQuoted v)

theorem tokenize_wpaItems (ssid password : Bytes) {iface : Bytes}
    (hiface : ∀ b ∈ iface, Shell.isPlain b = true) :
    Shell.tokenize [] (wpaItems ssid password iface) = some
      [.word (CStr.chars "wpa_passphrase"), .word ssid, .word password, .redirect [],
        .word (confFile iface), .redirect [50], .word (CStr.chars "/dev/null")] := by
  have hname : Shell.IsWord ((CStr.chars "wpa_passphrase").map Shell.unquoted)
      (CStr.chars "wpa_passphrase") := .plain (List.all_eq_true.mp rfl) (by decide)
  have hnumber : Shell.Splits ([50].map Shell.unquoted ++ [Shell.unquoted 62]) [.redirect [50]] :=
    .redirect (List.forall_mem_singleton.mpr rfl)
  have hnull : Shell.IsWord ((CStr.chars "/dev/null").map Shell.unquoted)
      (CStr.chars "/dev/null") := .plain (List.all_eq_true.mp rfl) (by decide)
  have hfront := (Shell.Splits.word hname).append ((splits_quoted ssid).append
    ((splits_quoted password).append (splits_redirect.append
      ((Shell.Splits.word (confItems_word hiface)).append hnumber))))
  refine (congrArg (Shell.tokenize []) ?_).trans (hfront.last hnull)
  simp [wpaItems, CStr.chars]

theorem parse_wpaLine {ssid password iface : Bytes} (hssid : 39 ∉ ssid) (hkey : 39 ∉ password)
    (hiface : ∀ b ∈ iface, Shell.isPlain b = true) :
    Shell.parse (wpaLine ssid password iface) = some
      { words := [CStr.chars "wpa_passphrase", ssid, password]
        redirects := [(1, confFile iface), (2, CStr.chars "/dev/null")] } := by
  have hruns := runs_wpaLine hssid hkey (Shell.isQuote_of_isPlain hiface)
  have htokens := tokenize_wpaItems ssid password hiface
  rw [← hruns.2] at htokens
  exact Shell.parse_eq_some.mpr ⟨hruns.1, _, htokens, rfl⟩

theorem tokenize_openItems (ssid : Bytes) {iface : Bytes}
    (hiface : ∀ b ∈ iface, Shell.isPlain b = true) :
    Shell.tokenize [] (openItems ssid iface) = some
      [.word (CStr.chars "printf"), .word (formatOf ssid), .redirect [],
        .word (confFile iface)] := by
  have hname : Shell.IsWord ((CStr.chars "printf").map Shell.unquoted) (CStr.chars "printf") :=
    .plain (List.all_eq_true.mp rfl) (by decide)
  have hfront := (Shell.Splits.word hname).append
    ((splits_quoted (formatOf ssid)).append splits_redirect)
  refine (congrArg (Shell.tokenize []) ?_).trans (hfront.last (confItems_word hiface))
  simp [openItems, CStr.chars]

theorem parse_openLine {ssid iface : Bytes} (hssid : 39 ∉ formatOf ssid)
    (hiface : ∀ b ∈ iface, Shell.isPlain b = true) :
    Shell.parse (openLine ssid iface) = some
      { words := [CStr.chars "printf", formatOf ssid]
        redirects := [(1, confFile iface)] } := by
  have hruns := runs_openLine hssid (Shell.isQuote_of_isPlain hiface)
  have htokens := tokenize_openItems ssid hiface
  rw [← hruns.2] at htokens
  exact Shell.parse_eq_some.mpr ⟨hruns.1, _, htokens, rfl⟩

/-- Without `%` and `\` the name is printed as it is. -/
theorem printf_formatOf (conv : Printf.Conversions) {ssid : Bytes}
    (h : ∀ b ∈ ssid, b ≠ 37 ∧ b ≠ 92) :
    Printf.printf conv (formatOf ssid) = some (networkBlock ssid) := by
  have hformat : formatOf ssid = CStr.chars "network=\x7b" ++ ([92, 110] ++
      (CStr.chars "  ssid=\"" ++ (ssid ++ (CStr.chars "\"" ++ ([92, 110] ++
        (CStr.chars "  key_mgmt=NONE" ++ ([92, 110] ++
          (CStr.chars "\x7d" ++ [92, 110])))))))) := rfl
  have hback := (Printf.runs_literal (CStr.chars "\"") rfl).trans (Printf.runs_newline.trans
    ((Printf.runs_literal (CStr.chars "  key_mgmt=NONE") rfl).trans (Printf.runs_newline.trans
      ((Printf.runs_literal (CStr.chars "\x7d") rfl).trans Printf.runs_newline))))
  have hruns := (Printf.runs_literal (CStr.chars "network=\x7b") rfl).trans
    (Printf.runs_newline.trans ((Printf.runs_literal (CStr.chars "  ssid=\"") rfl).trans
      ((Printf.runs_plain h).trans hback)))
  rw [hformat, Printf.printf_of_runs hruns conv]
  simp only [List.flatMap_append, Printf.output_plain]
  rfl

/-! ## Lines that are read back -/

theorem isQuote_iface {iface front back : Bytes} {q : Shell.Quoting}
    (hfront : Shell.lexer.exec q front = .none)
    (hcalm : Shell.lexer.Along Shell.Calm q (front ++ (iface ++ back))) (h39 : 39 ∉ iface) :
    iface.any Shell.isQuote = false := by
  rw [Machine.along_append, hfront, Machine.along_append] at hcalm
  exact Shell.isQuote_of_calm hcalm.2.1 h39

def wpaSigns : Bytes := [32] ++ ([39, 39] ++ ([32] ++ ([39, 39] ++ ([32, 62, 32] ++ [32, 62]))))

/-- The line and the command it should be differ by the signs and the descriptor 2. -/
theorem wpaLine_perm {ssid password iface : Bytes}
    (h : Shell.parse (wpaLine ssid password iface) = some
      { words := [CStr.chars "wpa_passphrase", ssid, password]
        redirects := [(1, confFile iface), (2, CStr.chars "/dev/null")] }) :
    ∃ ds : Bytes, (ds ++ Shell.signs (wpaLine ssid password iface)).Perm ([50] ++ wpaSigns) := by
  obtain ⟨ds, -, hperm⟩ := Shell.parse_perm h
  refine ⟨ds, List.perm_iff_count.mpr fun b => ?_⟩
  have hname : CStr.chars "wpa_passphrase " = CStr.chars "wpa_passphrase" ++ [32] := rfl
  have hblank : CStr.chars " " = [32] := rfl
  have hfile : CStr.chars " > " = [32, 62, 32] := rfl
  have hnull : (CStr.chars " 2>/dev/null").Perm ([50] ++ ([32, 62] ++ CStr.chars "/dev/null")) := by
    decide
  have hcount := hperm.count_eq b
  have hnull' := hnull.count_eq b
  simp only [wpaLine, Shell.Command.bytes, List.flatten_cons, List.flatten_nil, List.flatMap_cons,
    List.flatMap_nil, List.count_append, List.count_nil, Shell.count_quote, hname, hblank,
    hfile] at hcount hnull' ⊢
  simp only [wpaSigns, List.count_append]
  omega

theorem of_parse_wpaLine {ssid password iface : Bytes}
    (h : Shell.parse (wpaLine ssid password iface) = some
      { words := [CStr.chars "wpa_passphrase", ssid, password]
        redirects := [(1, confFile iface), (2, CStr.chars "/dev/null")] }) :
    (∀ b ∈ iface, Shell.isPlain b = true) ∧ 39 ∉ ssid ∧ 39 ∉ password := by
  obtain ⟨ds, hrest⟩ := wpaLine_perm h
  obtain ⟨hcalm, h39⟩ := Shell.calm_of_subset h
    (fun b hb => hrest.mem_iff.mp (List.mem_append_right ds hb)) (by decide) (by decide)
  simp only [Shell.Command.bytes, confFile, List.flatten_cons, List.flatMap_cons, List.mem_append,
    not_or] at h39
  obtain ⟨⟨-, hssid, hkey, -⟩, ⟨-, hiface, -⟩, -⟩ := h39
  have hquote : iface.any Shell.isQuote = false := by
    have hline : wpaLine ssid password iface = (CStr.chars "wpa_passphrase " ++ (Shell.quote ssid ++
        (CStr.chars " " ++ (Shell.quote password ++ CStr.chars " > /tmp/wpa_")))) ++
        (iface ++ CStr.chars ".conf 2>/dev/null") := by
      simp [wpaLine, confFile, CStr.chars]
    rw [hline] at hcalm
    refine isQuote_iface ?_ hcalm hiface
    exact ((Shell.runs_none rfl).trans ((Shell.runs_quote hssid).trans
      ((Shell.runs_none rfl).trans ((Shell.runs_quote hkey).trans
        (Shell.runs_none rfl))))).1
  refine ⟨Shell.isPlain_of_signs hquote ?_, hssid, hkey⟩
  have hitems : Shell.signs (wpaLine ssid password iface) = _ :=
    congrArg Shell.signsOf (runs_wpaLine hssid hkey hquote).2
  rw [hitems, signsOf_wpaItems] at hrest
  apply List.eq_nil_iff_forall_not_mem.mpr
  intro b hb
  have hcount := hrest.count_eq b
  have hpos := List.count_pos_iff.mpr hb
  -- all the signs are those around the words; only the descriptor is left, and a digit is no sign
  simp only [wpaSigns, List.count_append] at hcount
  have hmem : b ∈ [50] := List.count_pos_iff.mp (by omega)
  rw [List.mem_singleton.mp hmem] at hb
  exact Shell.digit_notMem_signsOf (by decide) iface hb

def openSigns : Bytes := [32] ++ ([39, 39] ++ [32, 62, 32])

/-- The line's bytes are the format, the descriptors and the signs, besides what is fixed. -/
theorem openLine_perm {ssid iface format : Bytes}
    (h : Shell.parse (openLine ssid iface) = some
      { words := [CStr.chars "printf", format], redirects := [(1, confFile iface)] }) :
    ∃ ds : Bytes, (format ++ (ds ++ Shell.signs (openLine ssid iface))).Perm
      (formatOf ssid ++ openSigns) := by
  obtain ⟨ds, -, hperm⟩ := Shell.parse_perm h
  refine ⟨ds, List.perm_iff_count.mpr fun b => ?_⟩
  have hname : CStr.chars "printf " = CStr.chars "printf" ++ [32] := rfl
  have hfile : CStr.chars " > " = [32, 62, 32] := rfl
  have hcount := hperm.count_eq b
  simp only [openLine, Shell.Command.bytes, List.flatten_cons, List.flatten_nil, List.flatMap_cons,
    List.flatMap_nil, List.count_append, List.count_nil, Shell.count_quote, hname, hfile]
    at hcount ⊢
  simp only [openSigns, List.count_append]
  omega

/-- A format that prints the block is as expensive as the one the line has, so it is as long, and
the line has no signs but those around it. -/
theorem openSigns_perm {conv : Printf.Conversions} {ssid format rest : Bytes}
    (hperm : (format ++ rest).Perm (formatOf ssid ++ openSigns))
    (hout : Printf.printf conv format = some (networkBlock ssid)) :
    rest.Perm openSigns ∧ (∀ b ∈ ssid, b ≠ 37 ∧ b ≠ 92) ∧ (39 ∉ format → 39 ∉ ssid) := by
  have hcost : Printf.cost format ≤ Printf.cost (networkBlock ssid) := by
    have hcount : Printf.cost (format ++ rest) = Printf.cost (formatOf ssid ++ openSigns) :=
      hperm.countP_eq _
    have hfixed : Printf.cost (networkBlock []) = Printf.cost (formatOf []) ∧
        Printf.cost openSigns = 0 := by decide
    simp only [Printf.cost, networkBlock, formatOf, List.countP_append, List.countP_nil]
      at hcount hfixed ⊢
    omega
  obtain ⟨hlen, hbystander⟩ := Printf.printf_tight hout hcost
  have hsub : openSigns.Subperm rest := by
    apply List.subperm_ext_iff.mpr
    intro b hb
    have hfixed : (openSigns.all fun b => Printf.isBystander b &&
        (networkBlock []).count b == (formatOf []).count b) = true := by decide
    have hsign := List.all_eq_true.mp hfixed b hb
    rw [Bool.and_eq_true, beq_iff_eq] at hsign
    obtain ⟨hby, hblock⟩ := hsign
    have hprinted := hbystander b hby
    have hcount := hperm.count_eq b
    simp only [networkBlock, formatOf, List.count_append, List.count_nil] at hprinted hcount hblock
    omega
  have hrest : rest.length ≤ openSigns.length ∧ ssid.count 37 = 0 ∧ ssid.count 92 = 0 := by
    have hlong := hsub.length_le
    have hlength := hperm.length_eq
    have hnewlines := hperm.count_eq 10
    have hfixed : (networkBlock []).length + (networkBlock []).count 10 = (formatOf []).length ∧
        (networkBlock []).count 37 = 0 ∧ (networkBlock []).count 92 = 0 ∧
        (formatOf []).count 10 = 0 ∧ openSigns.count 10 = 0 := by decide
    simp only [networkBlock, formatOf, List.length_append, List.count_append, List.count_nil,
      List.length_nil] at hlen hlength hnewlines hfixed ⊢
    omega
  obtain ⟨hshort, h37, h92⟩ := hrest
  refine ⟨(hsub.perm_of_length_le hshort).symm, fun b hb => ⟨?_, ?_⟩, fun h39 hmem => ?_⟩
  · rintro rfl
    exact List.count_eq_zero.mp h37 hb
  · rintro rfl
    exact List.count_eq_zero.mp h92 hb
  · have hprinted := hbystander 39 (by decide)
    rw [List.count_eq_zero.mpr h39, List.count_eq_zero] at hprinted
    exact hprinted (List.mem_append_right _ (List.mem_append_left _ hmem))

theorem of_parse_openLine {conv : Printf.Conversions} {ssid iface format : Bytes}
    (h : Shell.parse (openLine ssid iface) = some
      { words := [CStr.chars "printf", format], redirects := [(1, confFile iface)] })
    (hout : Printf.printf conv format = some (networkBlock ssid)) :
    (∀ b ∈ iface, Shell.isPlain b = true) ∧ 39 ∉ ssid ∧ ∀ b ∈ ssid, b ≠ 37 ∧ b ≠ 92 := by
  obtain ⟨ds, hperm⟩ := openLine_perm h
  obtain ⟨hrest, hplain, hquoteFree⟩ := openSigns_perm hperm hout
  obtain ⟨hcalm, h39⟩ := Shell.calm_of_subset h
    (fun b hb => hrest.mem_iff.mp (List.mem_append_right ds hb)) (by decide) (by decide)
  simp only [Shell.Command.bytes, confFile, List.flatten_cons, List.flatMap_cons, List.mem_append,
    not_or] at h39
  obtain ⟨⟨-, hformat, -⟩, ⟨-, hiface, -⟩, -⟩ := h39
  have hssid := hquoteFree hformat
  have hformatOf : 39 ∉ formatOf ssid := by
    simp only [formatOf, List.mem_append, not_or]
    exact ⟨by decide, hssid, by decide⟩
  have hquote : iface.any Shell.isQuote = false := by
    have hline : openLine ssid iface = (CStr.chars "printf " ++ (Shell.quote (formatOf ssid) ++
        CStr.chars " > /tmp/wpa_")) ++ (iface ++ CStr.chars ".conf") := by
      simp [openLine, confFile, CStr.chars]
    rw [hline] at hcalm
    refine isQuote_iface ?_ hcalm hiface
    exact ((Shell.runs_none rfl).trans ((Shell.runs_quote hformatOf).trans
      (Shell.runs_none rfl))).1
  refine ⟨Shell.isPlain_of_signs hquote ?_, hssid, hplain⟩
  have hitems : Shell.signs (openLine ssid iface) = _ :=
    congrArg Shell.signsOf (runs_openLine hformatOf hquote).2
  rw [hitems, signsOf_openItems] at hrest
  -- the signs around the words are as many as there are signs at all
  have hlength := hrest.length_eq
  simp only [openSigns, List.length_append, List.length_cons, List.length_nil] at hlength
  exact List.eq_nil_of_length_eq_zero (by omega)

/-! ## The commands of a call -/

/-- Behind the first command a call runs the one that writes the configuration. -/
theorem commands_config {shell : CStr → CmdResult} {s : WifiLink} {ssid : CStr}
    (password : Option CStr) (hready : s.initialized ∧ s.enabled) (hssid : ssid.bytes ≠ []) :
    (wifiMgrConnect shell s (some ssid) password).commands[1]? =
      some (configCommand ssid password s.iface) := by
  have hsome : (some ssid).filter (·.bytes ≠ []) = some ssid := by simp [hssid]
  rw [wifiMgrConnect, hsome, if_neg (by simp [hready])]
  dsimp only
  split_ifs <;> rfl

/-- **Literal commands.** The command that writes the configuration has the name and the password
as they are, or prints the name as it is, exactly when there is no `'` in either, no `%` or `\` in
the name of an open network, and nothing in the interface's name means something to the shell. -/
theorem literal_iff (conv : Printf.Conversions) (shell : CStr → CmdResult) (s : WifiLink)
    (ssid : CharArray 64) (password : Option (CharArray 128))
    (hready : s.initialized ∧ s.enabled) (hssid : ssid.bytes ≠ []) :
    let key := keyOf (password.map CharArray.str)
    (∃ cmd ∈ (wifiMgrConnect shell s (some ssid.str) (password.map CharArray.str)).commands[1]?,
        Literal conv s.iface.bytes ssid.bytes key cmd) ↔
      (∀ b ∈ s.iface.bytes, Shell.isPlain b = true) ∧ 39 ∉ ssid.bytes ∧
        (∀ k ∈ key, 39 ∉ k.bytes) ∧ (key = none → ∀ b ∈ ssid.bytes, b ≠ 37 ∧ b ≠ 92) := by
  intro key
  have hcommand : (wifiMgrConnect shell s (some ssid.str)
      (password.map CharArray.str)).commands[1]? = some (match key with
        | some key => wpaCommand ssid.str key s.iface
        | none => openCommand ssid.str s.iface) := commands_config _ hready hssid
  rw [hcommand]
  simp only [Option.mem_some_iff, exists_eq_left']
  cases hkey : key with
  | some k =>
    obtain ⟨p, -, rfl⟩ : ∃ p, password = some p ∧ p.str = k :=
      Option.map_eq_some_iff.mp (Option.filter_eq_some_iff.mp hkey).1
    show Shell.parse (wpaCommand ssid.str p.str s.iface).bytes = _ ↔ _
    rw [wpaCommand_bytes]
    constructor
    · intro h
      obtain ⟨hiface, hname, hpass⟩ := of_parse_wpaLine h
      exact ⟨hiface, hname, fun k hk => Option.some.inj hk ▸ hpass, fun hnone => by cases hnone⟩
    · rintro ⟨hiface, hname, hpass, -⟩
      exact parse_wpaLine hname (hpass _ rfl) hiface
  | none =>
    show (∃ format, Shell.parse (openCommand ssid.str s.iface).bytes = _ ∧ _) ↔ _
    rw [openCommand_bytes]
    constructor
    · rintro ⟨format, h, hout⟩
      obtain ⟨hiface, hname, hplain⟩ := of_parse_openLine h hout
      exact ⟨hiface, hname, fun k hk => (by cases hk), fun _ => hplain⟩
    · rintro ⟨hiface, hname, -, hplain⟩
      have hformat : 39 ∉ formatOf ssid.bytes := by
        simp only [formatOf, List.mem_append, not_or]
        exact ⟨by decide, hname, by decide⟩
      exact ⟨_, parse_openLine hformat hiface, printf_formatOf conv (hplain rfl)⟩

/-- Without an operand nothing is printed. -/
def silent : Printf.Conversions := ⟨fun _ _ => [], fun _ _ _ hb => absurd hb List.not_mem_nil⟩

def readyLink : WifiLink := { readyWifi with currentSsid := default, connected := false }

def homeName : CharArray 64 := .copy 64 (.lit "Home")

def homePassword : CharArray 128 := .copy 128 (.lit "correct horse")

def succeeds : CStr → CmdResult := fun _ => ⟨[], 0⟩

theorem home_literal :
    (readyLink.initialized ∧ readyLink.enabled) ∧ homeName.bytes ≠ [] ∧
      ∃ cmd ∈ (wifiMgrConnect succeeds readyLink (some homeName.str)
          (some homePassword.str)).commands[1]?,
        Literal silent readyLink.iface.bytes homeName.bytes (keyOf (some homePassword.str)) cmd :=
  ⟨by decide, by decide, (literal_iff silent succeeds readyLink homeName (some homePassword)
    (by decide) (by decide)).mpr
      ⟨List.all_eq_true.mp rfl, by decide, by decide, fun hopen => by cases hopen⟩⟩

/-- A name that ends the quotation and starts a command. -/
def injectingName : CharArray 64 := .copy 64 (.lit "';reboot;'")

/-- The shell gets to see three commands. -/
theorem injected_not_literal :
    let run := wifiMgrConnect succeeds readyLink (some injectingName.str) (some homePassword.str)
    (∃ cmd ∈ run.commands[1]?, cmd.bytes = CStr.chars
      "wpa_passphrase '';reboot;'' 'correct horse' > /tmp/wpa_wlan0.conf 2>/dev/null") ∧
    ¬ ∃ cmd ∈ run.commands[1]?,
        Literal silent readyLink.iface.bytes injectingName.bytes (keyOf (some homePassword.str))
          cmd := by
  intro run
  have hcommand : run.commands[1]? =
      some (wpaCommand injectingName.str homePassword.str readyLink.iface) :=
    commands_config _ (by decide) (by decide)
  have hbytes := wpaCommand_bytes injectingName homePassword readyLink.iface
  rw [hcommand]
  refine ⟨⟨_, rfl, hbytes.trans (by decide)⟩, ?_⟩
  rintro ⟨cmd, hcmd, h⟩
  obtain rfl := Option.some.inj hcmd
  have hparse : Shell.parse
      (wpaCommand injectingName.str homePassword.str readyLink.iface).bytes = _ := h
  rw [hbytes] at hparse
  exact absurd (of_parse_wpaLine hparse).2.1 (by decide)

end NetMon.Net
