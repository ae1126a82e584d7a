import NetMon.Lib.CJsonParse

/-!
# Cut documents

A value that `cJSON_Parse` reads is read from a text of its own: in front of anything else behind it
the parser finds the same value (`parseValue_local`). A container ends with its bracket, so a
printed object of which anything is missing at the end is not a document at all
(`parse_cut`).
-/

namespace NetMon.Lib

namespace CJson

/-! ## White space -/

theorem skipWhitespace_spaces {ws : Bytes} (hws : ∀ x ∈ ws, x ≤ 32) {b : UInt8} (hb : 32 < b)
    (s : Bytes) : skipWhitespace (ws ++ b :: s) = b :: s := by
  unfold skipWhitespace
  rw [List.dropWhile_append_of_pos (by simpa using hws),
    List.dropWhile_cons_of_neg (by simpa using hb)]

theorem skipWhitespace_eq_cons {s s' : Bytes} {b : UInt8} (h : skipWhitespace s = b :: s')
    (hb : 32 < b) : ∃ ws, (∀ x ∈ ws, x ≤ 32) ∧ s = ws ++ b :: s' := by
  have hspaces : ∀ x ∈ s.takeWhile (· ≤ 32), x ≤ 32 := fun x hx => by
    simpa using List.mem_takeWhile_imp hx
  have hsplit := List.takeWhile_append_dropWhile (p := (· ≤ 32)) (l := s)
  unfold skipWhitespace at h
  split at h
  · next hnil =>
    -- Only white space is left, so what is skipped to is a blank too.
    rw [hnil, List.append_nil] at hsplit
    have hmem : b ∈ s := List.mem_of_mem_drop (h ▸ List.mem_cons_self)
    rw [← hsplit] at hmem
    exact absurd (hspaces b hmem) (UInt8.not_le.mpr hb)
  · exact ⟨_, hspaces, by rw [← h, hsplit]⟩

theorem numberEnd_spaces {ws : Bytes} (hws : ∀ x ∈ ws, x ≤ 32) {b : UInt8}
    (hb : isNumberByte b = false) (s : Bytes) : NumberEnd (ws ++ b :: s) := by
  have hblank : ∀ x : UInt8, x ≤ 32 → isNumberByte x = false := fun x =>
    forall_byte (P := fun x => x ≤ 32 → isNumberByte x = false) (by decide +kernel) x
  cases ws with
  | nil => exact numberEnd_cons hb
  | cons x ws => exact numberEnd_cons (hblank x (hws x List.mem_cons_self))

/-! ## Texts of their own -/

/-- What `child` reads it reads from a text that starts with a visible character, and it reads the
same in front of whatever does not go on with a number. -/
def Local {β : Type*} (child : Bytes → Option (β × Bytes)) : Prop :=
  ∀ s x rest, child s = some (x, rest) → NumberEnd rest →
    ∃ b c, s = b :: c ++ rest ∧ 32 < b ∧ ∀ t, NumberEnd t → child (b :: c ++ t) = some (x, t)

/-- The same for what ends with a bracket, in front of anything. -/
def Closed {β : Type*} (p : Bytes → Option (β × Bytes)) (close : UInt8) : Prop :=
  ∀ s x rest, p s = some (x, rest) →
    ∃ c, s = c ++ close :: rest ∧ ∀ t, p (c ++ close :: t) = some (x, t)

theorem scanQuote_local {s raw rest : Bytes} (h : scanQuote s = some (raw, rest)) :
    s = raw ++ 34 :: rest ∧ ∀ t, scanQuote (raw ++ 34 :: t) = some (raw, t) := by
  fun_induction scanQuote s generalizing raw rest with
  | case1 => cases h
  | case2 s =>
    cases h
    exact ⟨rfl, fun t => scanQuote_quote t⟩
  | case3 => cases h
  | case4 c s _ ih =>
    obtain ⟨⟨raw', rest'⟩, hscan, heq⟩ := Option.map_eq_some_iff.mp h
    cases heq
    obtain ⟨hs, hall⟩ := ih hscan
    refine ⟨by rw [hs]; rfl, fun t => ?_⟩
    rw [List.cons_append, List.cons_append, scanQuote_pair, hall]
    rfl
  | case5 b s hb hb92 ih =>
    obtain ⟨⟨raw', rest'⟩, hscan, heq⟩ := Option.map_eq_some_iff.mp h
    cases heq
    obtain ⟨hs, hall⟩ := ih hscan
    refine ⟨by rw [hs]; rfl, fun t => ?_⟩
    rw [List.cons_append, scanQuote_plain hb hb92, hall]
    rfl

theorem parseString_local {s rest : Bytes} {x : CStr} (h : parseString s = some (x, rest)) :
    ∃ c, s = 34 :: c ++ rest ∧ ∀ t, parseString (34 :: c ++ t) = some (x, t) := by
  cases s with
  | nil => cases h
  | cons b s =>
    rw [parseString] at h
    split at h
    · next hb =>
      obtain ⟨⟨raw, r⟩, hscan, hrest⟩ := Option.bind_eq_some_iff.mp h
      obtain ⟨out, hdecode, heq⟩ := Option.bind_eq_some_iff.mp hrest
      cases heq
      obtain ⟨rfl, hall⟩ := scanQuote_local hscan
      refine ⟨raw ++ [34], by rw [hb]; simp, fun t => ?_⟩
      have hone := hall t
      rw [List.cons_append, List.append_assoc, List.singleton_append]
      simp only [parseString, if_true, hone, Option.bind_eq_bind, Option.bind_some, hdecode,
        Option.pure_def]
    · cases h

theorem parseNumber_local {b : UInt8} {s rest : Bytes} {x : CJson} (hb : isNumberByte b = true)
    (h : parseNumber (b :: s) = some (x, rest)) (hrest : NumberEnd rest) :
    ∃ c, b :: s = b :: c ++ rest ∧ ∀ t, NumberEnd t → parseNumber (b :: c ++ t) = some (x, t) := by
  obtain ⟨⟨v, left⟩, hnum, heq⟩ := Option.map_eq_some_iff.mp h
  set text := (b :: s).takeWhile isNumberByte with htext
  have hall : ∀ y ∈ text, isNumberByte y = true := fun y hy => List.mem_takeWhile_imp hy
  obtain ⟨c, hc⟩ : ∃ c, text = b :: c := ⟨_, List.takeWhile_cons_of_pos hb⟩
  have hsplit : text ++ (b :: s).dropWhile isNumberByte = b :: s :=
    List.takeWhile_append_dropWhile
  obtain ⟨rfl, hdrop⟩ := Prod.mk.inj heq
  -- What is left of the text would go on with a number.
  have hleft : left = [] := by
    by_contra hne
    have hpos := List.length_pos_iff.mpr hne
    have hlen : 0 < text.length := by rw [hc]; exact Nat.succ_pos _
    have hk : text.length - left.length < text.length := by omega
    have hhead : rest.head? = some text[text.length - left.length] := by
      rw [← hdrop, ← hsplit, List.drop_append_of_le_length hk.le, List.drop_eq_getElem_cons hk]
      rfl
    have hno := hrest _ hhead
    rw [hall _ (List.getElem_mem hk)] at hno
    cases hno
  rw [hleft, List.length_nil, Nat.sub_zero] at hdrop
  have hrest' : rest = (b :: s).dropWhile isNumberByte := by
    rw [← hdrop, ← hsplit, List.drop_left, hsplit]
  refine ⟨c, by rw [hrest', ← hc, hsplit], fun t ht => ?_⟩
  have htake : (b :: c ++ t).takeWhile isNumberByte = b :: c := by
    rw [← hc, List.takeWhile_append_of_pos hall]
    cases t with
    | nil => simp
    | cons y t => simp [ht y rfl]
  rw [hc, hleft] at hnum
  unfold parseNumber
  simp only [htake, hnum, Option.map_some, List.length_nil, Nat.sub_zero, List.drop_left]

section Children

variable {β : Type*} {child : Bytes → Option (β × Bytes)} {close : UInt8}

theorem parseList_local (hchild : Local child)
    (hclose : 32 < close ∧ close ≠ 44 ∧ isNumberByte close = false) {fuel : Nat} {s rest : Bytes}
    {xs : List β} (h : parseList child close fuel s = some (xs, rest)) :
    ∃ c, s = c ++ close :: rest ∧ ∀ fuel' t, c.length < fuel' →
      parseList child close fuel' (c ++ close :: t) = some (xs, t) := by
  induction fuel generalizing s xs with
  | zero => cases h
  | succ fuel ih =>
    rw [parseList] at h
    obtain ⟨⟨x, s1⟩, hx, hnext⟩ := Option.bind_eq_some_iff.mp h
    dsimp only at hnext
    split at hnext
    · cases hnext
    · next b s2 hskip =>
      -- What follows the child is a comma or the bracket, behind white space.
      have hmark : ∀ {mark : UInt8}, b = mark → 32 < mark → isNumberByte mark = false →
          ∃ ws0 b1 c1 ws1, (∀ y ∈ ws0, y ≤ 32) ∧ (∀ y ∈ ws1, y ≤ 32) ∧ 32 < b1 ∧
            s = ws0 ++ (b1 :: c1 ++ (ws1 ++ mark :: s2)) ∧ ∀ t,
              child (b1 :: c1 ++ (ws1 ++ mark :: t)) = some (x, ws1 ++ mark :: t) := by
        rintro mark rfl hvis hno
        obtain ⟨ws1, hws1, rfl⟩ := skipWhitespace_eq_cons hskip hvis
        obtain ⟨b1, c1, hc1, hb1, hread⟩ := hchild _ _ _ hx (numberEnd_spaces hws1 hno s2)
        obtain ⟨ws0, hws0, hs⟩ := skipWhitespace_eq_cons hc1 hb1
        exact ⟨ws0, b1, c1, ws1, hws0, hws1, hb1, hs, fun t =>
          hread _ (numberEnd_spaces hws1 hno t)⟩
      split at hnext
      · next hcomma =>
        obtain ⟨⟨xs', r⟩, hlist, heq⟩ := Option.map_eq_some_iff.mp hnext
        cases heq
        obtain ⟨c2, rfl, hall⟩ := ih hlist
        obtain ⟨ws0, b1, c1, ws1, hws0, hws1, hb1, rfl, hread⟩ :=
          hmark hcomma (by decide) (by decide)
        refine ⟨ws0 ++ (b1 :: c1 ++ (ws1 ++ 44 :: c2)), by simp, fun fuel' t hfuel => ?_⟩
        obtain ⟨k, rfl⟩ : ∃ k, fuel' = k + 1 := ⟨fuel' - 1, by omega⟩
        have hshape : ws0 ++ (b1 :: c1 ++ (ws1 ++ 44 :: c2)) ++ close :: t =
            ws0 ++ b1 :: (c1 ++ (ws1 ++ 44 :: (c2 ++ close :: t))) := by simp
        have hone := hread (c2 ++ close :: t)
        have hrest := hall k t (by
          simp only [List.length_append, List.length_cons] at hfuel
          omega)
        rw [List.cons_append] at hone
        rw [hshape]
        simp only [parseList, skipWhitespace_spaces hws0 hb1, hone, Option.bind_eq_bind,
          Option.bind_some, skipWhitespace_spaces hws1 (b := 44) (by decide), if_true, hrest,
          Option.map_some]
      · split at hnext
        · next hbracket =>
          cases hnext
          obtain ⟨ws0, b1, c1, ws1, hws0, hws1, hb1, rfl, hread⟩ :=
            hmark hbracket hclose.1 hclose.2.2
          refine ⟨ws0 ++ (b1 :: c1 ++ ws1), by simp, fun fuel' t hfuel => ?_⟩
          obtain ⟨k, rfl⟩ : ∃ k, fuel' = k + 1 := ⟨fuel' - 1, by omega⟩
          have hshape : ws0 ++ (b1 :: c1 ++ ws1) ++ close :: t =
              ws0 ++ b1 :: (c1 ++ (ws1 ++ close :: t)) := by simp
          have hone := hread t
          rw [List.cons_append] at hone
          rw [hshape]
          simp only [parseList, skipWhitespace_spaces hws0 hb1, hone, Option.bind_eq_bind,
            Option.bind_some, skipWhitespace_spaces hws1 hclose.1, if_neg hclose.2.1, if_true]
        · cases hnext

theorem parseChildren_closed (hchild : Local child)
    (hclose : 32 < close ∧ close ≠ 44 ∧ isNumberByte close = false) :
    Closed (parseChildren child close) close := by
  intro s xs rest h
  unfold parseChildren at h
  split at h
  · cases h
  · next b s' hskip =>
    split at h
    · next hb =>
      cases h
      obtain ⟨ws, hws, rfl⟩ := skipWhitespace_eq_cons hskip (hb ▸ hclose.1)
      refine ⟨ws, by rw [hb], fun t => ?_⟩
      rw [parseChildren, skipWhitespace_spaces hws hclose.1]
      exact if_pos rfl
    · next hb =>
      obtain ⟨c, hc, hall⟩ := parseList_local hchild hclose h
      obtain ⟨c', rfl⟩ : ∃ c', c = b :: c' := by
        cases c with
        | nil => exact absurd (List.cons_eq_cons.mp hc).1 hb
        | cons d c => exact ⟨c, by rw [(List.cons_eq_cons.mp hc).1]⟩
      by_cases hvis : 32 < b
      · obtain ⟨ws, hws, rfl⟩ := skipWhitespace_eq_cons hskip hvis
        refine ⟨ws ++ b :: c', by rw [hc, List.append_assoc], fun t => ?_⟩
        have hone := hall ((c' ++ close :: t).length + 1) t (by
          rw [List.length_append, List.length_cons, List.length_cons]
          omega)
        rw [parseChildren, List.append_assoc, List.cons_append, skipWhitespace_spaces hws hvis]
        simp only [if_neg hb]
        exact hone
      · -- Only the last byte is left, but the bracket is behind it.
        unfold skipWhitespace at hskip
        split at hskip
        · have hlen := congrArg List.length hskip
          have hlen' := congrArg List.length hc
          rw [List.length_drop, List.length_cons] at hlen
          rw [List.length_cons, List.length_append, List.length_cons, List.length_cons] at hlen'
          omega
        · next hdrop =>
          have hhead := List.head?_dropWhile_not (· ≤ 32) s
          rw [hskip] at hhead
          exact absurd (by simpa using hhead) hvis

end Children

theorem parseMember_local {value : Bytes → Option (CJson × Bytes)} (hvalue : Local value) :
    Local (parseMember value) := by
  intro s x rest h hrest
  obtain ⟨⟨key, s1⟩, hkey, hnext⟩ := Option.bind_eq_some_iff.mp h
  dsimp only at hnext
  obtain ⟨c, rfl, hstring⟩ := parseString_local hkey
  split at hnext
  · cases hnext
  · next b s2 hskip =>
    split at hnext
    · next hb =>
      subst hb
      obtain ⟨⟨v, r⟩, hv, heq⟩ := Option.map_eq_some_iff.mp hnext
      cases heq
      obtain ⟨ws1, hws1, rfl⟩ := skipWhitespace_eq_cons hskip (by decide)
      obtain ⟨b2, c2, hc2, hb2, hread⟩ := hvalue _ _ _ hv hrest
      obtain ⟨ws2, hws2, rfl⟩ := skipWhitespace_eq_cons hc2 hb2
      refine ⟨34, c ++ (ws1 ++ 58 :: (ws2 ++ b2 :: c2)), by simp, by decide, fun t ht => ?_⟩
      have hshape : 34 :: (c ++ (ws1 ++ 58 :: (ws2 ++ b2 :: c2))) ++ t =
          34 :: c ++ (ws1 ++ 58 :: (ws2 ++ b2 :: (c2 ++ t))) := by simp
      have hone := hread t ht
      rw [List.cons_append] at hone
      rw [hshape]
      simp only [parseMember, hstring, Option.bind_eq_bind, Option.bind_some,
        skipWhitespace_spaces hws1 (b := 58) (by decide), if_true,
        skipWhitespace_spaces hws2 hb2, hone, Option.map_some]
    · cases hnext

/-! ## Values -/

theorem parseWith_local {array object : Bytes → Option (CJson × Bytes)} (ha : Closed array 93)
    (ho : Closed object 125) : Local (parseWith array object) := by
  intro s x rest h hrest
  -- A literal is its text, in front of anything.
  have hlit : ∀ {s : Bytes} {b : UInt8} {c : Bytes}, (b :: c).isPrefixOf s = true →
      s = b :: c ++ s.drop (b :: c).length := fun hpre => by
    obtain ⟨t, rfl⟩ := List.isPrefixOf_iff_prefix.mp hpre
    rw [List.drop_left]
  have hnull : (CStr.lit "null").bytes = 110 :: [117, 108, 108] := rfl
  have hfalse : (CStr.lit "false").bytes = 102 :: [97, 108, 115, 101] := rfl
  have htrue : (CStr.lit "true").bytes = 116 :: [114, 117, 101] := rfl
  by_cases h1 : (CStr.lit "null").bytes.isPrefixOf s = true
  · rw [parseWith.eq_def, if_pos h1] at h
    cases h
    exact ⟨110, [117, 108, 108], hlit (hnull ▸ h1), by decide, fun t _ => parseWith_null t⟩
  by_cases h2 : (CStr.lit "false").bytes.isPrefixOf s = true
  · rw [parseWith.eq_def, if_neg h1, if_pos h2] at h
    cases h
    exact ⟨102, [97, 108, 115, 101], hlit (hfalse ▸ h2), by decide, fun t _ =>
      parseWith_bool false t⟩
  by_cases h3 : (CStr.lit "true").bytes.isPrefixOf s = true
  · rw [parseWith.eq_def, if_neg h1, if_neg h2, if_pos h3] at h
    cases h
    exact ⟨116, [114, 117, 101], hlit (htrue ▸ h3), by decide, fun t _ => parseWith_bool true t⟩
  rw [parseWith.eq_def, if_neg h1, if_neg h2, if_neg h3] at h
  split at h
  · cases h
  · next b s =>
    split at h
    · next hb =>
      obtain ⟨⟨str, r⟩, hstr, heq⟩ := Option.map_eq_some_iff.mp h
      cases heq
      obtain ⟨c, hc, hall⟩ := parseString_local hstr
      refine ⟨34, c, hc, by decide, fun t _ => ?_⟩
      have hone := hall t
      rw [List.cons_append] at hone ⊢
      rw [parseWith_cons (by decide), if_pos rfl, hone]
      rfl
    · next hquote =>
      split at h
      · next hb =>
        have hnum : isNumberByte b = true := by
          rcases hb with rfl | hb
          · decide
          · simp [isNumberByte, hb]
        obtain ⟨c, hc, hall⟩ := parseNumber_local hnum h hrest
        refine ⟨b, c, hc, isNumberByte_visible hnum, fun t ht => ?_⟩
        have hletters : b ≠ 110 ∧ b ≠ 102 ∧ b ≠ 116 := by
          refine ⟨?_, ?_, ?_⟩ <;> (rintro rfl; revert hb; decide)
        have hone := hall t ht
        rw [List.cons_append] at hone ⊢
        rw [parseWith_cons hletters, if_neg hquote, if_pos hb, hone]
      · split at h
        · next hb =>
          obtain ⟨c, rfl, hall⟩ := ha _ _ _ h
          refine ⟨91, c ++ [93], by rw [hb]; simp, by decide, fun t _ => ?_⟩
          rw [List.cons_append, List.append_assoc, List.singleton_append,
            parseWith_cons (by decide)]
          exact hall t
        · split at h
          · next hb =>
            obtain ⟨c, rfl, hall⟩ := ho _ _ _ h
            refine ⟨123, c ++ [125], by rw [hb]; simp, by decide, fun t _ => ?_⟩
            rw [List.cons_append, List.append_assoc, List.singleton_append,
              parseWith_cons (by decide)]
            exact hall t
          · cases h

theorem closed_map {β : Type*} {p : Bytes → Option (β × Bytes)} {close : UInt8} (h : Closed p close)
    (f : β → CJson) : Closed (fun s => (p s).map fun r => (f r.1, r.2)) close := by
  intro s x rest hs
  obtain ⟨⟨y, r⟩, hy, heq⟩ := Option.map_eq_some_iff.mp hs
  cases heq
  obtain ⟨c, hc, hall⟩ := h _ _ _ hy
  exact ⟨c, hc, fun t => by dsimp only; rw [hall]; rfl⟩

/-- What the parser reads, it reads from a text of its own. -/
theorem parseValue_local (n : Nat) : Local (parseValue n) := by
  induction n with
  | zero => exact parseWith_local (fun _ _ _ h => by cases h) fun _ _ _ h => by cases h
  | succ n ih =>
    exact parseWith_local (closed_map (parseChildren_closed ih (by decide)) _)
      (closed_map (parseChildren_closed (parseMember_local ih) (by decide)) _)

/-- An object ends with its bracket. -/
theorem parseValue_object_closed (n : Nat) :
    Closed (fun t => parseValue (n + 1) (123 :: t)) 125 := by
  have hbracket : 32 < (125 : UInt8) ∧ (125 : UInt8) ≠ 44 ∧ isNumberByte 125 = false := by decide
  have hmembers := parseChildren_closed (parseMember_local (parseValue_local n)) hbracket
  have hobject := closed_map hmembers object
  intro s x rest h
  obtain ⟨c, hc, hall⟩ := hobject s x rest (by
    dsimp only at h
    rw [parseValue, parseWith_cons (by decide)] at h
    exact h)
  refine ⟨c, hc, fun t => ?_⟩
  dsimp only
  rw [parseValue, parseWith_cons (by decide)]
  exact hall t

theorem printUnformatted_object {members : List (CStr × CJson)} {t : Bytes}
    (h : printUnformatted (object members) = some t) : ∃ s, t = 123 :: s := by
  have hprint : printValue (999 + 1) (object members) = some t := h
  rw [printValue] at hprint
  obtain ⟨ts, -, rfl⟩ := Option.map_eq_some_iff.mp hprint
  exact ⟨ts ++ [125], rfl⟩

/-- **Cut documents.** An object that was printed is not parsed if the end of its text is missing,
wherever it was cut. -/
theorem parse_cut {members : List (CStr × CJson)} {t : Bytes}
    (h : printUnformatted (object members) = some t) {p : Bytes} (hp : p <+: t)
    (hcut : p ≠ t) : parse (CStr.ofBytes p) = none := by
  obtain ⟨q, rfl⟩ := hp
  have hq : q ≠ [] := fun hq => hcut (by rw [hq, List.append_nil])
  have hnonul : 0 ∉ p ++ q := fun h0 => absurd (printUnformatted_visible h 0 h0) (by decide)
  have hbytes : (CStr.ofBytes p).bytes = p :=
    CStr.ofBytes_of_nonul fun h0 => hnonul (List.mem_append_left q h0)
  obtain ⟨s, hs⟩ := printUnformatted_object h
  unfold parse
  rw [hbytes, Option.map_eq_none_iff]
  cases p with
  | nil => rfl
  | cons b p =>
    obtain ⟨rfl, -⟩ := List.cons_eq_cons.mp hs
    have hbom : skipUtf8Bom (123 :: p ++ [0]) = 123 :: p ++ [0] := by
      apply if_neg
      intro hmark
      have hfirst : (123 : UInt8) = 0xEF := by simpa using congrArg List.head? hmark.2
      exact absurd hfirst (by decide)
    rw [hbom, List.cons_append, skipWhitespace_cons (by decide), Option.eq_none_iff_forall_ne_some]
    rintro ⟨x, rest⟩ hparse
    obtain ⟨c, hc, hall⟩ := parseValue_object_closed (nestingLimit - 1) _ _ _ hparse
    -- The bracket is not the NUL, so it was in front of the cut.
    obtain ⟨rest', rfl⟩ : ∃ rest', rest = rest' ++ [0] := by
      have hlast := congrArg List.getLast? hc
      rcases List.eq_nil_or_concat' rest with rfl | ⟨rest', z, rfl⟩
      · rw [List.getLast?_concat, List.getLast?_concat, Option.some.injEq] at hlast
        exact absurd hlast (by decide)
      · have hshape : c ++ 125 :: (rest' ++ [z]) = c ++ 125 :: rest' ++ [z] := by simp
        rw [hshape, List.getLast?_concat, List.getLast?_concat, Option.some.injEq] at hlast
        exact ⟨rest', by rw [← hlast]⟩
    have hp' : p = c ++ 125 :: rest' := by
      have : p ++ [0] = c ++ 125 :: rest' ++ [0] := by rw [hc]; simp
      exact List.append_cancel_right this
    have hwhole := hall (rest' ++ q ++ [0])
    have hback := (parseValue_print h).2 [0] (numberEnd_cons rfl)
    have hshape : 123 :: p ++ q ++ [0] = 123 :: (c ++ 125 :: (rest' ++ q ++ [0])) := by
      rw [hp']
      simp
    rw [hshape] at hback
    have hsame := hwhole.symm.trans hback
    have hnil : rest' ++ q ++ [0] = [0] := (Prod.mk.inj (Option.some.inj hsame)).2
    have := congrArg List.length hnil
    simp only [List.length_append, List.length_singleton] at this
    exact hq (List.eq_nil_of_length_eq_zero (by omega))

end CJson

end NetMon.Lib
