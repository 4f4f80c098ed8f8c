import Glopfile.Whatwg.Url

/-!
# What the URL parser guarantees

The states from the path on set path, query and fragment and nothing else (`Continues`). Those
before them set credentials, host and port, so that a special URL that was accepted has a host,
and what it has in credentials and query need not be encoded again.
-/

namespace Whatwg
open PercentEncodeSet (avoids_encode avoids_encodeChar)

variable {url url' url'' : Url} {buffer input : List Char}

namespace Url

structure Continues (url url' : Url) : Prop where
  scheme : url'.scheme = url.scheme
  username : url'.username = url.username
  password : url'.password = url.password
  host : url'.host = url.host
  port : url'.port = url.port
  path : url.path.IsList → url'.path.IsList
  query : url'.query = url.query ∨ ∃ text, url'.query = some (url.querySet.encode text)

theorem Continues.refl : Continues url url := ⟨rfl, rfl, rfl, rfl, rfl, id, .inl rfl⟩

theorem Continues.trans (h : url.Continues url') (h' : url'.Continues url'') :
    url.Continues url'' where
  scheme := h'.scheme.trans h.scheme
  username := h'.username.trans h.username
  password := h'.password.trans h.password
  host := h'.host.trans h.host
  port := h'.port.trans h.port
  path := fun hlist => h'.path (h.path hlist)
  query := by
    have hset : url'.querySet = url.querySet := by rw [querySet, isSpecial, h.scheme]; rfl
    rcases h'.query with hsame | ⟨text, htext⟩
    · rw [hsame]
      exact h.query
    · exact .inr ⟨text, by rw [htext, hset]⟩

theorem Continues.list {segments : List (List Char)} :
    url.Continues { url with path := .list segments } :=
  ⟨rfl, rfl, rfl, rfl, rfl, fun _ => ⟨_, rfl⟩, .inl rfl⟩

theorem appendSegment_continues {segment : List Char} :
    url.Continues (url.appendSegment segment) := by
  unfold appendSegment
  split
  · exact .refl
  · exact .list

theorem shorten_continues : url.Continues url.shorten := by
  unfold shorten
  split
  · exact .refl
  · split_ifs
    · exact .refl
    · exact .list

theorem endSegment_continues {slash : Bool} : url.Continues (url.endSegment buffer slash) := by
  unfold endSegment
  split_ifs
  · exact shorten_continues
  · exact shorten_continues.trans appendSegment_continues
  · exact .refl
  · exact appendSegment_continues
  · exact appendSegment_continues
  · exact appendSegment_continues

end Url

open Url (Continues endSegment_continues)

theorem fragmentState_continues : url.Continues (fragmentState url input) :=
  ⟨rfl, rfl, rfl, rfl, rfl, id, .inl rfl⟩

theorem queryState_continues : url.Continues (queryState url buffer input) := by
  have hquery : ∀ text, url.Continues { url with query := some (url.querySet.encode text) } :=
    fun text => ⟨rfl, rfl, rfl, rfl, rfl, id, .inr ⟨text, rfl⟩⟩
  induction input generalizing buffer with
  | nil => exact hquery buffer
  | cons c input ih =>
    unfold queryState
    split_ifs
    · exact (hquery buffer).trans fragmentState_continues
    · exact ih

theorem opaquePathState_scheme : (opaquePathState url buffer input).scheme = url.scheme := by
  induction input generalizing buffer with
  | nil => rfl
  | cons c input ih =>
    unfold opaquePathState
    split_ifs
    · exact queryState_continues.scheme
    · exact fragmentState_continues.scheme
    · exact ih
    · exact ih

theorem pathState_continues {stateOverride : Bool} :
    url.Continues (pathState stateOverride url buffer input) := by
  induction input generalizing url buffer with
  | nil => exact endSegment_continues
  | cons c input ih =>
    unfold pathState
    split_ifs
    · exact endSegment_continues.trans ih
    · exact endSegment_continues.trans queryState_continues
    · exact endSegment_continues.trans fragmentState_continues
    · exact ih

theorem pathStartState_continues {stateOverride : Bool} :
    url.Continues (pathStartState stateOverride url input) := by
  cases input with
  | nil =>
    rw [pathStartState]
    split_ifs
    · exact pathState_continues
    · exact Url.appendSegment_continues
    · exact .refl
  | cons c input =>
    rw [pathStartState]
    split_ifs
    · exact pathState_continues
    · exact pathState_continues
    · exact queryState_continues
    · exact fragmentState_continues
    · exact pathState_continues

section Parser
variable {host : HostParser}

structure Url.BeforeHost (url : Url) : Prop where
  username : userinfoPercentEncodeSet.Avoids url.username
  password : userinfoPercentEncodeSet.Avoids url.password
  port : url.port = none
  path : url.path.IsList
  query : url.query = none

structure Url.Accepted (host : HostParser) (url : Url) : Prop where
  username : userinfoPercentEncodeSet.Avoids url.username
  password : userinfoPercentEncodeSet.Avoids url.password
  host : ∃ text, url.host = some text ∧ HostText text ∧ host.parse false text = some text
  port : ∀ port, url.port = some port → port < 2 ^ 16 ∧ url.defaultPort ≠ some port
  path : url.path.IsList
  query : ∀ query, url.query = some query → specialQueryPercentEncodeSet.Avoids query

theorem Url.Accepted.continues (h : url.Accepted host) (hspecial : url.isSpecial = true)
    (hcontinues : url.Continues url') : url'.Accepted host where
  username := hcontinues.username ▸ h.username
  password := hcontinues.password ▸ h.password
  host := hcontinues.host ▸ h.host
  port := by
    rw [hcontinues.port, Url.defaultPort, hcontinues.scheme]
    exact h.port
  path := hcontinues.path h.path
  query := by
    intro query hquery
    rcases hcontinues.query with hsame | ⟨text, htext⟩
    · exact h.query query (hsame ▸ hquery)
    · obtain rfl := Option.some.inj (htext.symm.trans hquery)
      rw [Url.querySet, hspecial, if_pos rfl]
      exact avoids_encode

def Url.Reaches (host : HostParser) (url url' : Url) : Prop :=
  url'.scheme = url.scheme ∧ (url.isSpecial = true → url.BeforeHost → url'.Accepted host)

theorem setPort_eq_some (h : url.setPort buffer = some url') :
    url'.scheme = url.scheme ∧ (url.Accepted host → url'.Accepted host) := by
  unfold Url.setPort at h
  dsimp only at h
  split_ifs at h with hempty hlarge hdefault
  · obtain rfl := Option.some.inj h
    exact ⟨rfl, id⟩
  · obtain rfl := Option.some.inj h
    exact ⟨rfl, fun ⟨husername, hpassword, hhost, _, hpath, hquery⟩ =>
      ⟨husername, hpassword, hhost, nofun, hpath, hquery⟩⟩
  · obtain rfl := Option.some.inj h
    refine ⟨rfl, fun ⟨husername, hpassword, hhost, _, hpath, hquery⟩ =>
      ⟨husername, hpassword, hhost, ?_, hpath, hquery⟩⟩
    intro port hport
    obtain rfl := Option.some.inj hport
    exact ⟨by omega, hdefault⟩

theorem setHost_eq_some (h : setHost host url buffer = some url') : url.Reaches host url' := by
  obtain ⟨text, hparse, rfl⟩ := Option.map_eq_some_iff.mp h
  refine ⟨rfl, fun hspecial hbefore => ⟨hbefore.username, hbefore.password, ?_, ?_,
    hbefore.path, ?_⟩⟩
  · rw [hspecial] at hparse
    exact ⟨text, rfl, host.hostText _ _ hparse, host.parse_serialized _ _ hparse⟩
  · intro port hport
    cases hport.symm.trans hbefore.port
  · intro query hquery
    cases hquery.symm.trans hbefore.query

theorem Url.Reaches.continues (h : url.Reaches host url') (hcontinues : url'.Continues url'') :
    url.Reaches host url'' := by
  refine ⟨hcontinues.scheme.trans h.1, fun hspecial hbefore => ?_⟩
  refine (h.2 hspecial hbefore).continues ?_ hcontinues
  rw [Url.isSpecial, h.1]
  exact hspecial

theorem Url.Reaches.portState {urlWithHost : Url} (hreaches : url.Reaches host urlWithHost)
    (h : portState urlWithHost buffer input = some url') : url.Reaches host url' := by
  have hend : ∀ buffer input, (urlWithHost.setPort buffer).map
      (fun url => pathStartState false url input) = some url' → url.Reaches host url' := by
    intro buffer input hmap
    obtain ⟨urlWithPort, hport, rfl⟩ := Option.map_eq_some_iff.mp hmap
    obtain ⟨hscheme, haccepted⟩ := @setPort_eq_some urlWithHost urlWithPort buffer host hport
    exact Url.Reaches.continues ⟨hscheme.trans hreaches.1, fun hspecial hbefore =>
      haccepted (hreaches.2 hspecial hbefore)⟩ pathStartState_continues
  induction input generalizing buffer with
  | nil => exact hend buffer [] h
  | cons c input ih =>
    unfold Whatwg.portState at h
    split_ifs at h
    · exact ih h
    · exact hend buffer _ h

theorem hostState_reaches {insideBrackets : Bool}
    (h : hostState host url insideBrackets buffer input = some url') : url.Reaches host url' := by
  have hend : ∀ buffer input, (setHost host url buffer).map
      (fun url => pathStartState false url input) = some url' → url.Reaches host url' := by
    intro buffer input hmap
    obtain ⟨urlWithHost, hhost, rfl⟩ := Option.map_eq_some_iff.mp hmap
    exact (setHost_eq_some hhost).continues pathStartState_continues
  induction input generalizing buffer insideBrackets with
  | nil =>
    unfold hostState at h
    split_ifs at h
    exact hend buffer [] h
  | cons c input ih =>
    unfold hostState at h
    split_ifs at h
    · obtain ⟨urlWithHost, hhost, hport⟩ := Option.bind_eq_some_iff.mp h
      exact (setHost_eq_some hhost).portState hport
    · exact hend buffer _ h
    all_goals exact ih h

theorem credential_beforeHost {seen : Bool} {c : Char} (h : url.BeforeHost) :
    (credential (url, seen) c).1.BeforeHost := by
  unfold credential
  dsimp only
  split_ifs
  · exact h
  · exact ⟨h.username, h.password.append avoids_encodeChar, h.port, h.path, h.query⟩
  · exact ⟨h.username.append avoids_encodeChar, h.password, h.port, h.path, h.query⟩

theorem credential_scheme {seen : Bool} {c : Char} :
    (credential (url, seen) c).1.scheme = url.scheme := by
  unfold credential
  dsimp only
  split_ifs
  · rfl
  · rfl
  · rfl

theorem foldl_credential {seen : Bool} :
    (buffer.foldl credential (url, seen)).1.scheme = url.scheme ∧
      (url.BeforeHost → (buffer.foldl credential (url, seen)).1.BeforeHost) := by
  induction buffer generalizing url seen with
  | nil => exact ⟨rfl, id⟩
  | cons c buffer ih =>
    obtain ⟨hscheme, hbefore⟩ := @ih (credential (url, seen) c).1 (credential (url, seen) c).2
    exact ⟨hscheme.trans credential_scheme, fun h => hbefore (credential_beforeHost h)⟩

theorem authorityState_reaches {atSignSeen passwordTokenSeen : Bool}
    (h : authorityState host url atSignSeen passwordTokenSeen buffer input = some url') :
    url.Reaches host url' := by
  induction input generalizing url buffer atSignSeen passwordTokenSeen with
  | nil =>
    unfold authorityState at h
    split_ifs at h
    exact hostState_reaches h
  | cons c input ih =>
    unfold authorityState at h
    by_cases hat : c = '@'
    · rw [if_pos hat] at h
      generalize (if atSignSeen = true then "%40".toList ++ buffer else buffer) = buffer at h
      obtain ⟨hscheme, hbefore⟩ := @foldl_credential url buffer passwordTokenSeen
      obtain ⟨hscheme', haccepted⟩ := ih h
      refine ⟨hscheme'.trans hscheme, fun hspecial h => haccepted ?_ (hbefore h)⟩
      rw [Url.isSpecial, hscheme]
      exact hspecial
    · rw [if_neg hat] at h
      split_ifs at h
      · exact hostState_reaches h
      · exact ih h

theorem specialAuthorityIgnoreSlashesState_reaches
    (h : specialAuthorityIgnoreSlashesState host url input = some url') :
    url.Reaches host url' := by
  induction input with
  | nil => exact authorityState_reaches h
  | cons c input ih =>
    unfold specialAuthorityIgnoreSlashesState at h
    split_ifs at h
    · exact ih h
    · exact authorityState_reaches h

theorem endFileHost_scheme (h : endFileHost host url buffer input = some url') :
    url'.scheme = url.scheme := by
  unfold endFileHost at h
  split_ifs at h
  · obtain rfl := Option.some.inj h
    exact pathState_continues.scheme
  · obtain rfl := Option.some.inj h
    exact pathStartState_continues.scheme
  · obtain ⟨urlWithHost, hhost, rfl⟩ := Option.map_eq_some_iff.mp h
    have hscheme : urlWithHost.scheme = url.scheme := (setHost_eq_some hhost).1
    refine Eq.trans ?_ hscheme
    dsimp only
    split_ifs
    · exact pathStartState_continues.scheme
    · exact pathStartState_continues.scheme

theorem fileHostState_scheme (h : fileHostState host url buffer input = some url') :
    url'.scheme = url.scheme := by
  induction input generalizing buffer with
  | nil => exact endFileHost_scheme h
  | cons c input ih =>
    unfold fileHostState at h
    split_ifs at h
    · exact endFileHost_scheme h
    · exact ih h

theorem some_pathState_scheme (h : some (pathState false url buffer input) = some url') :
    url'.scheme = url.scheme := by
  obtain rfl := Option.some.inj h
  exact pathState_continues.scheme

theorem fileSlashState_scheme (h : fileSlashState host url input = some url') :
    url'.scheme = url.scheme := by
  cases input with
  | nil => exact some_pathState_scheme h
  | cons c input =>
    rw [fileSlashState] at h
    split_ifs at h
    · exact fileHostState_scheme h
    · exact some_pathState_scheme h

theorem fileState_scheme (h : fileState host url input = some url') :
    url'.scheme = url.scheme := by
  have hscheme : url.scheme = ({ url with host := some [] } : Url).scheme := rfl
  rw [hscheme]
  cases input with
  | nil => exact some_pathState_scheme h
  | cons c input =>
    rw [fileState] at h
    split_ifs at h
    · exact fileSlashState_scheme h
    · exact some_pathState_scheme h

theorem pathOrAuthorityState_scheme (h : pathOrAuthorityState host url input = some url') :
    url'.scheme = url.scheme := by
  cases input with
  | nil => exact some_pathState_scheme h
  | cons c input =>
    rw [pathOrAuthorityState] at h
    split_ifs at h
    · exact (authorityState_reaches h).1
    · exact some_pathState_scheme h

def Url.IsHttp (url : Url) : Prop := url.scheme = "http" ∨ url.scheme = "https"

theorem Url.IsHttp.isSpecial (h : url.IsHttp) : url.isSpecial = true := by
  unfold Url.isSpecial
  rcases h with h | h
  · rw [h]
    decide
  · rw [h]
    decide

theorem Url.IsHttp.ne_file (h : url.IsHttp) : url.scheme ≠ "file" := by
  rcases h with h | h
  · rw [h]
    decide
  · rw [h]
    decide

theorem afterScheme_accepted {scheme : String} (h : afterScheme host (.new scheme) input = some url)
    (hhttp : url.IsHttp) : url.Accepted host := by
  have hsame : url.scheme = scheme → (Url.new scheme).isSpecial = true := by
    intro hscheme
    rw [Url.isSpecial, Url.new, ← hscheme]
    exact hhttp.isSpecial
  unfold afterScheme at h
  split_ifs at h with hfile hspecial
  · exact absurd ((fileState_scheme h).trans hfile) hhttp.ne_file
  · have hnew : (Url.new scheme).BeforeHost := ⟨.nil, .nil, rfl, ⟨[], rfl⟩, rfl⟩
    exact (specialAuthorityIgnoreSlashesState_reaches h).2 hspecial hnew
  · split at h
    · exact absurd (hsame (pathOrAuthorityState_scheme h)) hspecial
    · obtain rfl := Option.some.inj h
      exact absurd (hsame opaquePathState_scheme) hspecial

theorem accepted_of_parse (h : parse host input = some url) (hhttp : url.IsHttp) :
    url.Accepted host := by
  have hscheme : ∀ buffer input, schemeState host buffer input = some url → url.Accepted host := by
    intro buffer input h
    induction input generalizing buffer with
    | nil => cases h
    | cons c input ih =>
      unfold schemeState at h
      split_ifs at h
      · exact ih _ h
      · exact afterScheme_accepted h hhttp
  unfold parse at h
  cases hinput : removeTabAndNewline (strip input) with
  | nil =>
    rw [hinput] at h
    cases h
  | cons c input =>
    rw [hinput, schemeStartState] at h
    split_ifs at h
    exact hscheme _ _ h

end Parser

end Whatwg
