import Mathlib
import Glopfile.Whatwg.Accepted

/-!
# Reading a serialized URL

A part of a URL that has no code point of its set is read as it stands, up to the code point
that ends it: each state has a lemma of the form `state buffer (text ++ input) = state (buffer ++
text) input`. The URL of a web server that was accepted, given any path of plain segments and any
fragment that need not be encoded, is the URL that its serialization is parsed to.
-/

namespace Whatwg

variable {url : Url} {host : HostParser} {buffer text input fragment : List Char} {c : Char}

theorem not_mem_of_all {P : Char → Bool} {chars : List Char}
    (hchars : chars.all (fun d => !P d) = true) (h : P c = true) : c ∉ chars := by
  intro hmem
  have hnot := List.all_eq_true.mp hchars c hmem
  rw [h] at hnot
  cases hnot

def authorityEnds : List Char := "/\\?#@".toList

theorem isDelimiter_eq_false (h : c ∉ authorityEnds) : url.isDelimiter c = false := by
  have hne : ∀ d ∈ authorityEnds, c ≠ d := fun d hd hsame => h (hsame ▸ hd)
  have hslash := hne '/' (by decide)
  have hbackslash := hne '\\' (by decide)
  have hquestion := hne '?' (by decide)
  have hhash := hne '#' (by decide)
  simp [Url.isDelimiter, Url.isSlash, hslash, hbackslash, hquestion, hhash]

theorem PercentEncodeSet.Avoids.not_mem {set : PercentEncodeSet} {chars : List Char}
    (h : set.Avoids text) (hchars : chars.all set.mem = true) (hc : c ∈ text) : c ∉ chars := by
  intro hmem
  exact h.ne hc (List.all_eq_true.mp hchars c hmem) rfl

section Path

structure PlainSegment (segment : List Char) : Prop where
  avoids : pathPercentEncodeSet.Avoids segment
  slash : '/' ∉ segment
  backslash : '\\' ∉ segment
  singleDot : isSingleDot segment = false
  doubleDot : isDoubleDot segment = false

theorem toLower_eq {d : Char} (h : c.toLower = d) (hd : d.isLower = false) : c = d := by
  by_cases hupper : c.isUpper = true
  · rw [← h, Char.isLower_toLower_eq_isAlpha, Char.isAlpha, hupper] at hd
    cases hd
  · rw [← h, Char.toLower_eq_of_not_isUpper hupper]

theorem not_contains_dots {segment : List Char} {dots : List String}
    (hdots : dots.all (fun text => text.toList.any fun c => c = '.' || c = '%') = true)
    (hdot : '.' ∉ segment) (hpercent : '%' ∉ segment) :
    dots.contains (String.ofList (segment.map Char.toLower)) = false := by
  rw [List.contains_eq_mem, decide_eq_false_iff_not]
  intro hmem
  obtain ⟨d, hd, hchar⟩ := List.any_eq_true.mp (List.all_eq_true.mp hdots _ hmem)
  rw [String.toList_ofList] at hd
  obtain ⟨c, hc, hlower⟩ := List.mem_map.mp hd
  rw [Bool.or_eq_true, decide_eq_true_eq, decide_eq_true_eq] at hchar
  rcases hchar with rfl | rfl
  · exact hdot (toLower_eq hlower rfl ▸ hc)
  · exact hpercent (toLower_eq hlower rfl ▸ hc)

theorem plainSegment_of_dotFree {segment : List Char}
    (havoids : pathPercentEncodeSet.Avoids segment) (hslash : '/' ∉ segment)
    (hbackslash : '\\' ∉ segment) (hdot : '.' ∉ segment) (hpercent : '%' ∉ segment) :
    PlainSegment segment :=
  ⟨havoids, hslash, hbackslash, not_contains_dots (by decide) hdot hpercent,
    not_contains_dots (by decide) hdot hpercent⟩

theorem pathState_append {stateOverride : Bool} (havoids : pathPercentEncodeSet.Avoids text)
    (hslash : '/' ∉ text) (hbackslash : '\\' ∉ text) :
    pathState stateOverride url buffer (text ++ input) =
      pathState stateOverride url (buffer ++ text) input := by
  induction text generalizing buffer with
  | nil => rw [List.nil_append, List.append_nil]
  | cons c text ih =>
    rw [List.mem_cons, not_or] at hslash hbackslash
    have hquestion : c ≠ '?' := havoids.ne List.mem_cons_self rfl
    have hhash : c ≠ '#' := havoids.ne List.mem_cons_self rfl
    have hself : url.isSlash c = false := by
      simp [Url.isSlash, Ne.symm hslash.1, Ne.symm hbackslash.1]
    rw [List.cons_append, pathState, hself, if_neg Bool.false_ne_true,
      PercentEncodeSet.encodeChar_eq_self (havoids c List.mem_cons_self)]
    simp only [hquestion, hhash, decide_false, Bool.and_false, Bool.false_eq_true, if_false]
    rw [ih (fun d hd => havoids d (List.mem_cons_of_mem c hd)) hslash.2 hbackslash.2,
      List.append_assoc, List.singleton_append]

theorem endSegment_plain {segments : List (List Char)} {segment : List Char} {slash : Bool}
    (hhttp : url.IsHttp) (hpath : url.path = .list segments) (h : PlainSegment segment) :
    url.endSegment segment slash = { url with path := .list (segments ++ [segment]) } := by
  simp only [Url.endSegment, h.doubleDot, h.singleDot, hhttp.ne_file, Url.appendSegment, hpath,
    decide_false, Bool.false_and, Bool.false_eq_true, if_false]

theorem isSlash_slash : url.isSlash '/' = true := rfl

theorem isDelimiter_slash : url.isDelimiter '/' = true := rfl

theorem pathState_segments {stateOverride : Bool} {finish : Url → Url}
    (hinput : ∀ url buffer, pathState stateOverride url buffer input =
      finish (url.endSegment buffer false))
    {segment : List Char} {rest segments : List (List Char)} (hhttp : url.IsHttp)
    (hpath : url.path = .list segments) (hplain : ∀ s ∈ segment :: rest, PlainSegment s) :
    pathState stateOverride url [] (segment ++ ((Path.list rest).serialize ++ input)) =
      finish { url with path := .list (segments ++ segment :: rest) } := by
  induction rest generalizing url segment segments with
  | nil =>
    have h := hplain segment List.mem_cons_self
    rw [pathState_append h.avoids h.slash h.backslash, List.nil_append, Path.serialize,
      List.flatMap_nil, List.nil_append, hinput, endSegment_plain hhttp hpath h]
  | cons next rest ih =>
    have h := hplain segment List.mem_cons_self
    rw [pathState_append h.avoids h.slash h.backslash, List.nil_append, Path.serialize,
      List.flatMap_cons, List.cons_append, List.cons_append, pathState, isSlash_slash,
      if_pos rfl, endSegment_plain hhttp hpath h, ← Path.serialize, List.append_assoc]
    rw [@ih { url with path := .list (segments ++ [segment]) } next _ hhttp rfl
      fun s hs => hplain s (List.mem_cons_of_mem segment hs), List.append_assoc,
      List.singleton_append]

theorem pathStartState_segments {stateOverride : Bool} {finish : Url → Url}
    (hinput : ∀ url buffer, pathState stateOverride url buffer input =
      finish (url.endSegment buffer false))
    {segments : List (List Char)} (hhttp : url.IsHttp) (hpath : url.path = .list [])
    (hne : segments ≠ []) (hplain : ∀ s ∈ segments, PlainSegment s) :
    pathStartState stateOverride url ((Path.list segments).serialize ++ input) =
      finish { url with path := .list segments } := by
  obtain ⟨segment, rest, rfl⟩ := List.exists_cons_of_ne_nil hne
  rw [Path.serialize, List.flatMap_cons, List.cons_append, List.cons_append, pathStartState,
    isSlash_slash, if_pos rfl, List.append_assoc, ← Path.serialize]
  exact pathState_segments hinput hhttp hpath hplain

end Path

theorem queryState_append (h : '#' ∉ text) :
    queryState url buffer (text ++ '#' :: fragment) =
      fragmentState { url with query := some (url.querySet.encode (buffer ++ text)) } fragment := by
  induction text generalizing buffer with
  | nil => rw [List.nil_append, List.append_nil, queryState, if_pos rfl]
  | cons c text ih =>
    rw [List.mem_cons, not_or] at h
    rw [List.cons_append, queryState, if_neg (Ne.symm h.1), ih h.2, List.append_assoc,
      List.singleton_append]

section Port

theorem isDigit_not_mem_authorityEnds (h : c.isDigit = true) : c ∉ authorityEnds := by
  refine not_mem_of_all (P := Char.isDigit) (by decide) h

theorem portState_append (h : ∀ c ∈ text, c.isDigit = true) :
    portState url buffer (text ++ input) = portState url (buffer ++ text) input := by
  induction text generalizing buffer with
  | nil => rw [List.nil_append, List.append_nil]
  | cons c text ih =>
    rw [List.cons_append, portState, if_pos (h c List.mem_cons_self),
      ih fun d hd => h d (List.mem_cons_of_mem c hd), List.append_assoc, List.singleton_append]

theorem setPort_decimal {port : ℕ} (hlt : port < 2 ^ 16) (hdefault : url.defaultPort ≠ some port) :
    url.setPort (HeaderText.decimal port) = some { url with port := some port } := by
  have hvalue : Nat.ofDigitChars 10 (HeaderText.decimal port) 0 = port :=
    (HeaderText.decimal_denotes hlt).value
  rw [Url.setPort, if_neg HeaderText.decimal_ne_nil]
  dsimp only
  rw [hvalue, if_neg (by omega), if_neg hdefault]

end Port

section Host

theorem HostText.ne_nil (h : HostText text) : text ≠ [] := by
  cases h with
  | domain hne hchars => exact hne
  | ipv6 hchars => exact nofun

theorem HostText.not_mem_authorityEnds (h : HostText text) (hc : c ∈ text) :
    c ∉ authorityEnds := by
  cases h with
  | domain hne hchars => exact not_mem_of_all (P := isDomainChar) (by decide) (hchars c hc)
  | ipv6 hchars =>
    rcases List.mem_append.mp hc with hc | hc
    · rcases List.mem_cons.mp hc with rfl | hc
      · decide
      · exact not_mem_of_all (P := isIpv6Char) (by decide) (hchars c hc)
    · rw [List.mem_singleton.mp hc]
      decide

theorem hostState_char {insideBrackets : Bool} (hdelimiter : c ∉ authorityEnds)
    (hcolon : c = ':' → insideBrackets = true) (hopen : c ≠ '[') (hclose : c ≠ ']') :
    hostState host url insideBrackets buffer (c :: input) =
      hostState host url insideBrackets (buffer ++ [c]) input := by
  have hport : (decide (c = ':') && !insideBrackets) = false := by
    by_cases hc : c = ':'
    · rw [hcolon hc, Bool.not_true, Bool.and_false]
    · rw [decide_eq_false hc, Bool.false_and]
  rw [hostState, hport, isDelimiter_eq_false hdelimiter]
  simp only [Bool.false_eq_true, if_false, hopen, hclose]

theorem hostState_append {insideBrackets : Bool} (hdelimiter : ∀ c ∈ text, c ∉ authorityEnds)
    (hcolon : ':' ∈ text → insideBrackets = true) (hopen : '[' ∉ text) (hclose : ']' ∉ text) :
    hostState host url insideBrackets buffer (text ++ input) =
      hostState host url insideBrackets (buffer ++ text) input := by
  induction text generalizing buffer with
  | nil => rw [List.nil_append, List.append_nil]
  | cons c text ih =>
    rw [List.mem_cons, not_or] at hopen hclose
    rw [List.cons_append, hostState_char (hdelimiter c List.mem_cons_self) ?_
      (Ne.symm hopen.1) (Ne.symm hclose.1), ih
      (fun d hd => hdelimiter d (List.mem_cons_of_mem c hd))
      (fun hmem => hcolon (List.mem_cons_of_mem c hmem)) hopen.2 hclose.2, List.append_assoc,
      List.singleton_append]
    rintro rfl
    exact hcolon List.mem_cons_self

theorem hostState_hostText (h : HostText text) :
    hostState host url false [] (text ++ input) = hostState host url false text input := by
  have hends : ∀ c ∈ text, c ∉ authorityEnds := fun c hc => h.not_mem_authorityEnds hc
  cases h with
  | domain hne hchars =>
    have hnot : ∀ d : Char, isDomainChar d = false → d ∉ text := by
      intro d hd hmem
      rw [hchars d hmem] at hd
      cases hd
    rw [hostState_append hends (fun hmem => absurd hmem (hnot ':' (by decide)))
      (hnot '[' (by decide)) (hnot ']' (by decide)), List.nil_append]
  | ipv6 hchars =>
    next pieces =>
    have hnot : ∀ d : Char, isIpv6Char d = false → d ∉ pieces := by
      intro d hd hmem
      rw [hchars d hmem] at hd
      cases hd
    have hopen : hostState host url false [] ('[' :: (pieces ++ ']' :: input)) =
        hostState host url true ['['] (pieces ++ ']' :: input) := by
      rw [hostState, isDelimiter_eq_false (by decide)]
      rfl
    have hclose : hostState host url true ('[' :: pieces) (']' :: input) =
        hostState host url false ('[' :: pieces ++ [']']) input := by
      rw [hostState, isDelimiter_eq_false (by decide)]
      rfl
    rw [List.cons_append, List.cons_append, List.append_assoc, List.singleton_append, hopen,
      hostState_append (fun c hc => not_mem_of_all (P := isIpv6Char) (by decide) (hchars c hc))
        (fun _ => rfl) (hnot '[' (by decide)) (hnot ']' (by decide)), List.singleton_append, hclose,
      List.cons_append]

theorem hostState_serialized {target : Url} (hspecial : url.isSpecial = true)
    (hhost : HostText text) (hparse : host.parse false text = some text) (hport : url.port = none)
    (htarget : ∀ port, target.port = some port → port < 2 ^ 16 ∧ url.defaultPort ≠ some port) :
    hostState host url false [] (text ++ (target.portText ++ '/' :: input)) =
      some (pathStartState false { url with host := some text, port := target.port }
        ('/' :: input)) := by
  have hset : setHost host url text = some { url with host := some text } := by
    rw [setHost, hspecial, Bool.not_true, hparse, Option.map_some]
  have hne : text ≠ [] := hhost.ne_nil
  rw [hostState_hostText hhost, Url.portText]
  cases hsome : target.port with
  | none =>
    rw [List.nil_append, hostState, if_neg (by decide), isDelimiter_slash, if_pos rfl, hspecial,
      Bool.true_and, decide_eq_false hne, if_neg Bool.false_ne_true, hset, Option.map_some, hport]
  | some port =>
    obtain ⟨hlt, hdefault⟩ := htarget port hsome
    dsimp only
    rw [List.cons_append, hostState, if_pos (by decide), if_neg hne, hset, Option.bind_some,
      portState_append fun c hc => HeaderText.isDigit_of_mem_decimal hc, List.nil_append,
      portState, if_neg (by decide), isDelimiter_slash, if_pos rfl,
      @setPort_decimal { url with host := some text } port hlt hdefault, Option.map_some]

end Host

section Authority
variable {atSignSeen passwordTokenSeen : Bool}

theorem authorityState_append (h : ∀ c ∈ text, c ∉ authorityEnds) :
    authorityState host url atSignSeen passwordTokenSeen buffer (text ++ input) =
      authorityState host url atSignSeen passwordTokenSeen (buffer ++ text) input := by
  induction text generalizing buffer with
  | nil => rw [List.nil_append, List.append_nil]
  | cons c text ih =>
    have hc := h c List.mem_cons_self
    have hat : c ≠ '@' := by
      rintro rfl
      exact hc (by decide)
    rw [List.cons_append, authorityState, if_neg hat, isDelimiter_eq_false hc,
      if_neg Bool.false_ne_true, ih fun d hd => h d (List.mem_cons_of_mem c hd), List.append_assoc,
      List.singleton_append]

theorem authorityState_host (h : ∀ c ∈ text, c ∉ authorityEnds) (hne : text ≠ []) :
    authorityState host url atSignSeen passwordTokenSeen [] (text ++ '/' :: input) =
      hostState host url false [] (text ++ '/' :: input) := by
  rw [authorityState_append h, List.nil_append, authorityState, if_neg (by decide),
    isDelimiter_slash, if_pos rfl, decide_eq_false hne, Bool.and_false, if_neg Bool.false_ne_true]

theorem foldl_credential_username (h : userinfoPercentEncodeSet.Avoids text) :
    text.foldl credential (url, false) =
      ({ url with username := url.username ++ text }, false) := by
  induction text generalizing url with
  | nil => rw [List.foldl_nil, List.append_nil]
  | cons c text ih =>
    have hcolon : c ≠ ':' := h.ne List.mem_cons_self rfl
    have hchar : credential (url, false) c =
        ({ url with username := url.username ++ [c] }, false) := by
      simp only [credential, hcolon, PercentEncodeSet.encodeChar_eq_self (h c List.mem_cons_self),
        decide_false, Bool.false_and, Bool.false_eq_true, if_false]
    rw [List.foldl_cons, hchar, ih fun d hd => h d (List.mem_cons_of_mem c hd), List.append_assoc,
      List.singleton_append]

theorem foldl_credential_password (h : userinfoPercentEncodeSet.Avoids text) :
    text.foldl credential (url, true) =
      ({ url with password := url.password ++ text }, true) := by
  induction text generalizing url with
  | nil => rw [List.foldl_nil, List.append_nil]
  | cons c text ih =>
    have hchar : credential (url, true) c =
        ({ url with password := url.password ++ [c] }, true) := by
      simp only [credential, PercentEncodeSet.encodeChar_eq_self (h c List.mem_cons_self),
        Bool.not_true, Bool.and_false, Bool.false_eq_true, if_false, if_true]
    rw [List.foldl_cons, hchar, ih fun d hd => h d (List.mem_cons_of_mem c hd), List.append_assoc,
      List.singleton_append]

theorem foldl_credential_credentials {target : Url}
    (husername : userinfoPercentEncodeSet.Avoids target.username)
    (hpassword : userinfoPercentEncodeSet.Avoids target.password)
    (hempty : url.username = [] ∧ url.password = [])
    (hsome : ¬(target.username = [] ∧ target.password = [])) :
    ∃ text seen, target.credentials = text ++ ['@'] ∧ (∀ c ∈ text, c ∉ authorityEnds) ∧
      text.foldl credential (url, false) =
        ({ url with username := target.username, password := target.password }, seen) := by
  have hends {text : List Char} (h : userinfoPercentEncodeSet.Avoids text) :
      ∀ c ∈ text, c ∉ authorityEnds := fun c hc => h.not_mem (by decide) hc
  have hfold := @foldl_credential_username url _ husername
  rw [Url.credentials, if_neg (by simpa using hsome)]
  by_cases hnone : target.password = []
  · rw [if_pos hnone, List.append_nil]
    refine ⟨target.username, false, rfl, hends husername, ?_⟩
    rw [hfold, hempty.1, hnone, List.nil_append, ← hempty.2]
  · rw [if_neg hnone]
    refine ⟨target.username ++ ':' :: target.password, true, rfl, ?_, ?_⟩
    · intro c hc
      rcases List.mem_append.mp hc with hc | hc
      · exact hends husername c hc
      · rcases List.mem_cons.mp hc with rfl | hc
        · decide
        · exact hends hpassword c hc
    · have hcolon : credential ({ url with username := target.username }, false) ':' =
          ({ url with username := target.username }, true) := rfl
      rw [List.foldl_append, hfold, hempty.1, List.nil_append, List.foldl_cons, hcolon,
        foldl_credential_password hpassword, hempty.2, List.nil_append]

theorem authorityState_credentials {target : Url}
    (husername : userinfoPercentEncodeSet.Avoids target.username)
    (hpassword : userinfoPercentEncodeSet.Avoids target.password)
    (hempty : url.username = [] ∧ url.password = []) (h : ∀ c ∈ text, c ∉ authorityEnds)
    (hne : text ≠ []) :
    authorityState host url false false [] (target.credentials ++ (text ++ '/' :: input)) =
      hostState host { url with username := target.username, password := target.password }
        false [] (text ++ '/' :: input) := by
  by_cases hnone : target.username = [] ∧ target.password = []
  · have hcredentials : target.credentials = [] := by
      rw [Url.credentials, if_pos (by simpa using hnone)]
    have hself : { url with username := target.username, password := target.password } = url := by
      rw [hnone.1, hnone.2]
      nth_rewrite 1 [← hempty.1]
      rw [← hempty.2]
    rw [hcredentials, List.nil_append, authorityState_host h hne, hself]
  · obtain ⟨credentials, seen, hcredentials, hends, hfold⟩ :=
      foldl_credential_credentials husername hpassword hempty hnone
    rw [hcredentials, List.append_assoc, authorityState_append hends, List.nil_append,
      List.singleton_append, authorityState, if_pos rfl, if_neg Bool.false_ne_true]
    dsimp only
    rw [hfold, authorityState_host h hne]

theorem mem_credentials (h : c ∈ url.credentials) :
    c ∈ url.username ∨ c ∈ url.password ∨ c = ':' ∨ c = '@' := by
  unfold Url.credentials at h
  split_ifs at h
  · cases h
  · simp only [List.append_nil, List.mem_append, List.mem_singleton] at h
    rcases h with h | h
    · exact .inl h
    · exact .inr (.inr (.inr h))
  · simp only [List.mem_append, List.mem_cons, List.not_mem_nil, or_false] at h
    rcases h with (h | h | h) | h
    · exact .inl h
    · exact .inr (.inr (.inl h))
    · exact .inr (.inl h)
    · exact .inr (.inr (.inr h))

end Authority

section Visible

def Visible (text : List Char) : Prop := ∀ c ∈ text, 0x20 < c.toNat

theorem visible_of_all (h : text.all (fun c => decide (0x20 < c.toNat)) = true) : Visible text :=
  fun c hc => of_decide_eq_true (List.all_eq_true.mp h c hc)

theorem Visible.append (h : Visible text) (hinput : Visible input) : Visible (text ++ input) :=
  fun c hc => (List.mem_append.mp hc).elim (h c) (hinput c)

theorem Visible.cons (h : 0x20 < c.toNat) (hinput : Visible input) : Visible (c :: input) :=
  List.forall_mem_cons.mpr ⟨h, hinput⟩

theorem Visible.dropWhile (h : Visible text) : text.dropWhile isC0ControlOrSpace = text := by
  cases text with
  | nil => rfl
  | cons c text =>
    have hc := h c List.mem_cons_self
    refine List.dropWhile_cons_of_neg ?_
    rw [isC0ControlOrSpace, decide_eq_true_eq]
    omega

theorem Visible.removeTabAndNewline (h : Visible text) : removeTabAndNewline text = text := by
  refine List.filter_eq_self.mpr fun c hc => ?_
  have hmem : c ∉ "\t\n\r".toList := by
    refine not_mem_of_all (P := fun d => decide (0x20 < d.toNat)) (by decide) ?_
    exact decide_eq_true (h c hc)
  rw [isTabOrNewline, List.contains_eq_mem, decide_eq_false hmem, Bool.not_false]

theorem Visible.strip (h : Visible text) : strip text = text := by
  have hreverse : Visible text.reverse := fun c hc => h c (List.mem_reverse.mp hc)
  rw [Whatwg.strip, h.dropWhile, hreverse.dropWhile, List.reverse_reverse]

theorem visible_of_isDigit (h : c.isDigit = true) : 0x20 < c.toNat := by
  have hbounds := HeaderText.isDigit_bounds h
  omega

theorem visible_of_isIpv6Char (h : isIpv6Char c = true) : 0x20 < c.toNat := by
  rcases Bool.or_eq_true_iff.mp h with h | h
  · exact visible_of_isDigit h
  · exact visible_of_all (by decide) c (List.contains_iff_mem.mp h)

theorem HostText.visible (h : HostText text) : Visible text := by
  intro c hc
  cases h with
  | domain hne hchars =>
    have hchar := hchars c hc
    simp only [isDomainChar, Bool.and_eq_true, decide_eq_true_eq] at hchar
    exact hchar.1.1
  | ipv6 hchars =>
    rcases List.mem_append.mp hc with hc | hc
    · rcases List.mem_cons.mp hc with rfl | hc
      · decide
      · exact visible_of_isIpv6Char (hchars c hc)
    · rw [List.mem_singleton.mp hc]
      decide

theorem visible_portText : Visible url.portText := by
  unfold Url.portText
  cases url.port with
  | none => exact nofun
  | some port =>
    exact .cons (by decide) fun c hc => visible_of_isDigit (HeaderText.isDigit_of_mem_decimal hc)

theorem visible_path {segments : List (List Char)} (h : ∀ s ∈ segments, PlainSegment s) :
    Visible (Path.list segments).serialize := by
  intro c hc
  obtain ⟨segment, hsegment, hc⟩ := List.mem_flatMap.mp hc
  rcases List.mem_cons.mp hc with rfl | hc
  · decide
  · exact visible_of_query (query_of_path ((h segment hsegment).avoids c hc))

theorem visible_credentials (husername : userinfoPercentEncodeSet.Avoids url.username)
    (hpassword : userinfoPercentEncodeSet.Avoids url.password) : Visible url.credentials := by
  intro c hc
  rcases mem_credentials hc with hc | hc | rfl | rfl
  · exact visible_of_query (query_of_path (path_of_userinfo (husername c hc)))
  · exact visible_of_query (query_of_path (path_of_userinfo (hpassword c hc)))
  · decide
  · decide

end Visible

theorem schemeStartState_http (hhttp : url.IsHttp) :
    schemeStartState host (url.scheme.toList ++ ':' :: input) =
      afterScheme host (.new url.scheme) input := by
  rcases hhttp with hscheme | hscheme
  · rw [hscheme]
    rfl
  · rw [hscheme]
    rfl

theorem afterScheme_http (hhttp : url.IsHttp) (hne : text ≠ [])
    (h : ∀ c ∈ text, c ≠ '/' ∧ c ≠ '\\') :
    afterScheme host (.new url.scheme) ('/' :: '/' :: (text ++ input)) =
      authorityState host (.new url.scheme) false false [] (text ++ input) := by
  have hslashes : specialAuthorityIgnoreSlashesState host (.new url.scheme)
      ('/' :: '/' :: (text ++ input)) =
        authorityState host (.new url.scheme) false false [] (text ++ input) := by
    obtain ⟨c, text, rfl⟩ := List.exists_cons_of_ne_nil hne
    obtain ⟨hslash, hbackslash⟩ := h c List.mem_cons_self
    rw [specialAuthorityIgnoreSlashesState, if_pos (by decide),
      specialAuthorityIgnoreSlashesState, if_pos (by decide), List.cons_append,
      specialAuthorityIgnoreSlashesState, if_neg (by simp [hslash, hbackslash])]
  rw [← hslashes]
  rcases hhttp with hscheme | hscheme
  · rw [hscheme]
    rfl
  · rw [hscheme]
    rfl

theorem pathState_query :
    pathState false url buffer ('?' :: input) =
      queryState (url.endSegment buffer false) [] input := by
  have hslash : url.isSlash '?' = false := by simp [Url.isSlash]
  rw [pathState, hslash]
  rfl

theorem pathState_fragment :
    pathState false url buffer ('#' :: input) =
      fragmentState (url.endSegment buffer false) input := by
  have hslash : url.isSlash '#' = false := by simp [Url.isSlash]
  rw [pathState, hslash]
  rfl

theorem setPath_segments {segments : List (List Char)} (hhttp : url.IsHttp)
    (hlist : url.path.IsList) (hne : segments ≠ []) (hplain : ∀ s ∈ segments, PlainSegment s) :
    url.setPath (Path.list segments).serialize = { url with path := .list segments } := by
  obtain ⟨old, hold⟩ := hlist
  rw [Url.setPath, hold, (visible_path hplain).removeTabAndNewline,
    ← List.append_nil (Path.list segments).serialize]
  exact @pathStartState_segments { url with path := .list [] } [] true id
    (fun url buffer => rfl) segments hhttp rfl hne hplain

theorem exists_finish {target : Url}
    (hquery : ∀ query, target.query = some query →
      specialQueryPercentEncodeSet.Avoids query)
    (hfragment : fragmentPercentEncodeSet.Avoids fragment) :
    ∃ finish : Url → Url,
      (∀ url buffer, pathState false url buffer (target.queryText ++ '#' :: fragment) =
        finish (url.endSegment buffer false)) ∧
      ∀ url : Url, url.IsHttp → url.query = none →
        finish url = { url with query := target.query, fragment := some fragment } := by
  have hstate : ∀ url : Url, fragmentState url fragment = { url with fragment := some fragment } :=
    fun url => by rw [fragmentState, PercentEncodeSet.encode_eq_self hfragment]
  unfold Url.queryText
  cases hsome : target.query with
  | none =>
    refine ⟨fun url => fragmentState url fragment, fun url buffer => pathState_fragment, ?_⟩
    intro url _ hnone
    dsimp only
    rw [hstate, ← hnone]
  | some query =>
    have havoids := hquery query hsome
    refine ⟨fun url => queryState url [] (query ++ '#' :: fragment),
      fun url buffer => pathState_query, ?_⟩
    intro url hhttp _
    have hhash : '#' ∉ query := fun hmem => havoids.ne hmem rfl rfl
    dsimp only
    rw [queryState_append hhash, hstate, List.nil_append, Url.querySet, hhttp.isSpecial,
      if_pos rfl, PercentEncodeSet.encode_eq_self havoids]

theorem serialize_eq {text : List Char} (hhost : url.host = some text)
    (hnone : url.fragment = none) :
    url.serialize ++ '#' :: fragment = url.scheme.toList ++ ':' :: '/' :: '/' ::
      (url.credentials ++ (text ++ (url.portText ++ (url.path.serialize ++
        (url.queryText ++ '#' :: fragment))))) := by
  simp [Url.serialize, Url.fragmentText, hhost, hnone]

theorem visible_serialize (h : url.Accepted host) (hhttp : url.IsHttp)
    {segments : List (List Char)} (hpath : url.path = .list segments)
    (hplain : ∀ s ∈ segments, PlainSegment s) (hnone : url.fragment = none)
    (hfragment : fragmentPercentEncodeSet.Avoids fragment) :
    Visible (url.serialize ++ '#' :: fragment) := by
  obtain ⟨text, hhost, hhostText, -⟩ := h.host
  have hscheme : Visible url.scheme.toList := by
    rcases hhttp with hscheme | hscheme
    · rw [hscheme]
      exact visible_of_all (by decide)
    · rw [hscheme]
      exact visible_of_all (by decide)
  have hquery : Visible url.queryText := by
    unfold Url.queryText
    cases hsome : url.query with
    | none => exact nofun
    | some query =>
      exact .cons (by decide) fun c hc =>
        visible_of_query (query_of_specialQuery (h.query query hsome c hc))
  have hpathText : Visible url.path.serialize := hpath ▸ visible_path hplain
  have htail : Visible ('#' :: fragment) :=
    .cons (by decide) fun c hc => visible_of_fragment (hfragment c hc)
  rw [serialize_eq hhost hnone]
  exact hscheme.append (.cons (by decide) (.cons (by decide) (.cons (by decide)
    ((visible_credentials h.username h.password).append (hhostText.visible.append
      (visible_portText.append (hpathText.append (hquery.append htail))))))))

theorem Url.Accepted.slashFree (h : url.Accepted host) {text : List Char}
    (hhost : HostText text) : ∀ c ∈ url.credentials ++ text, c ≠ '/' ∧ c ≠ '\\' := by
  intro c hc
  rcases List.mem_append.mp hc with hc | hc
  · rcases mem_credentials hc with hc | hc | rfl | rfl
    · exact ⟨h.username.ne hc rfl, h.username.ne hc rfl⟩
    · exact ⟨h.password.ne hc rfl, h.password.ne hc rfl⟩
    · decide
    · decide
  · have hends := hhost.not_mem_authorityEnds hc
    constructor
    · rintro rfl
      exact hends (by decide)
    · rintro rfl
      exact hends (by decide)

theorem authorityState_serialized (h : url.Accepted host) (hhttp : url.IsHttp)
    {text : List Char} (hhost : url.host = some text) (hhostText : HostText text)
    (hparse : host.parse false text = some text) :
    authorityState host (.new url.scheme) false false []
      (url.credentials ++ (text ++ (url.portText ++ '/' :: input))) =
        some (pathStartState false
          { url with path := .list [], query := none, fragment := none } ('/' :: input)) := by
  have hport : ∀ c ∈ url.portText, c ∉ authorityEnds := by
    unfold Url.portText
    cases url.port with
    | none => exact nofun
    | some port =>
      refine List.forall_mem_cons.mpr ⟨by decide, fun c hc => ?_⟩
      exact isDigit_not_mem_authorityEnds (HeaderText.isDigit_of_mem_decimal hc)
  have hends : ∀ c ∈ text ++ url.portText, c ∉ authorityEnds := fun c hc =>
    (List.mem_append.mp hc).elim hhostText.not_mem_authorityEnds (hport c)
  have hne : text ++ url.portText ≠ [] := fun hnil =>
    hhostText.ne_nil (List.append_eq_nil_iff.mp hnil).1
  have hhostState := @hostState_serialized
    { Url.new url.scheme with username := url.username, password := url.password } host text input
    url hhttp.isSpecial hhostText hparse rfl h.port
  rw [← List.append_assoc text, authorityState_credentials h.username h.password ⟨rfl, rfl⟩ hends
    hne, List.append_assoc text, hhostState, ← hhost]
  rfl

/-- A link to a page of an accepted URL is parsed to what it was written from. -/
theorem parse_serialize (h : url.Accepted host) (hhttp : url.IsHttp)
    {segments : List (List Char)} (hpath : url.path = .list segments) (hne : segments ≠ [])
    (hplain : ∀ s ∈ segments, PlainSegment s) (hnone : url.fragment = none)
    (hfragment : fragmentPercentEncodeSet.Avoids fragment) :
    parse host (url.serialize ++ '#' :: fragment) =
      some { url with fragment := some fragment } := by
  obtain ⟨text, hhost, hhostText, hparse⟩ := h.host
  have hvisible := visible_serialize h hhttp hpath hplain hnone hfragment
  obtain ⟨finish, hread, hfinish⟩ := @exists_finish fragment url h.query hfragment
  have hfront : url.credentials ++ text ≠ [] := fun hnil =>
    hhostText.ne_nil (List.append_eq_nil_iff.mp hnil).2
  obtain ⟨rest, hrest⟩ : ∃ rest, (Path.list segments).serialize ++
      (url.queryText ++ '#' :: fragment) = '/' :: rest := by
    obtain ⟨segment, segments, rfl⟩ := List.exists_cons_of_ne_nil hne
    exact ⟨_, rfl⟩
  have hsegments := @pathStartState_segments
    { url with path := .list [], query := none, fragment := none } _ false finish hread segments
    hhttp rfl hne hplain
  have hfinished := hfinish { url with path := .list segments, query := none, fragment := none }
    hhttp rfl
  rw [parse, hvisible.strip, hvisible.removeTabAndNewline, serialize_eq hhost hnone,
    schemeStartState_http hhttp, ← List.append_assoc url.credentials,
    afterScheme_http hhttp hfront (h.slashFree hhostText), List.append_assoc, hpath, hrest,
    authorityState_serialized h hhttp hhost hhostText hparse, ← hrest, hsegments]
  exact congrArg some hfinished

end Whatwg
