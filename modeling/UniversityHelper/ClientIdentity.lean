import UniversityHelper.IpAddress

/-! `RateLimiter._get_client_id`: the client behind a trusted proxy is the rightmost entry of
`X-Forwarded-For` that is no trusted proxy itself. -/
namespace UniversityHelper.ClientIdentity

structure Request where
  client : Option String
  forwardedFor : Option String
  realIp : Option String

def isTrustedProxy (host : String) : Bool :=
  let candidate := strip host
  if candidate = "" then false
  else if lower candidate = "localhost" then true
  else
    match ipAddress candidate with
    | none => false
    | some parsed => parsed.isPrivate || parsed.isLoopback || parsed.isLinkLocal

/-- The entry of the header, unless the walk skips it. -/
def hop (part : String) : Option String :=
  let candidate := strip part
  if candidate = "" then none
  else if isTrustedProxy candidate = true then none
  else some candidate

def getForwardedClientId (request : Request) : Option String :=
  let forwardedFor := strip (request.forwardedFor.getD "")
  let walked :=
    if forwardedFor = "" then none else (splitText forwardedFor ',').reverse.findSome? hop
  match walked with
  | some candidate => some candidate
  | none =>
    let realIp := strip (request.realIp.getD "")
    if realIp = "" then none else some realIp

def getClientId (request : Request) : String :=
  let clientHost := request.client.getD ""
  let forwarded := if isTrustedProxy clientHost = true then getForwardedClientId request else none
  forwarded.getD (if clientHost = "" then "unknown" else clientHost)

/-- An address with those that the proxies append to it. -/
def appended (address : String) : List String → String
  | [] => address
  | hop :: hops => address ++ ", " ++ appended hop hops

/-- `X-Forwarded-For` of a request that came with `supplied`, from the address `real`. -/
def forwardedFor (supplied real : String) (hops : List String) : String :=
  appended supplied (real :: hops)

section Walk
variable {part : String} {real : String} {hops : List String}

theorem isTrustedProxy_strip (host : String) : isTrustedProxy (strip host) = isTrustedProxy host := by
  simp only [isTrustedProxy, strip_strip]

theorem hop_strip (part : String) : hop (strip part) = hop part := by
  simp only [hop, strip_strip]

theorem hop_trusted (h : isTrustedProxy part = true) : hop part = none := by
  simp [hop, isTrustedProxy_strip, h]

theorem hop_untrusted (given : strip part ≠ "") (h : isTrustedProxy part = false) :
    hop part = some (strip part) := by
  simp [hop, isTrustedProxy_strip, h, given]

theorem blank_spaces : ∀ c ∈ [' '], isSpace c = true ∧ c ≠ ',' := by
  intro c hc
  obtain rfl := List.mem_singleton.mp hc
  exact ⟨by decide, by decide⟩

/-- The entries of the header are the addresses, up to blanks. -/
theorem split_appended {address : String} (hcomma : ',' ∉ address.toList)
    (hcommas : ∀ hop ∈ hops, ',' ∉ hop.toList) (blanks : List Char)
    (hblanks : ∀ c ∈ blanks, isSpace c = true ∧ c ≠ ',') :
    (((blanks ++ (appended address hops).toList).rdropWhile isSpace).splitOn ',').map stripChars =
      (address :: hops).map fun hop => stripChars hop.toList := by
  have hspaces : ∀ cs, stripChars (blanks ++ cs) = stripChars cs := by
    intro cs
    rw [stripChars, List.dropWhile_append_of_pos fun c hc => (hblanks c hc).1, stripChars]
  have hfirst : ',' ∉ blanks ++ address.toList := by
    rw [List.mem_append, not_or]
    exact ⟨fun h => (hblanks _ h).2 rfl, hcomma⟩
  induction hops generalizing address blanks with
  | nil =>
    have habsent : ',' ∉ (blanks ++ address.toList).rdropWhile isSpace := fun h =>
      hfirst ((List.rdropWhile_prefix _ _).subset h)
    rw [appended, List.splitOn_eq_singleton habsent, List.map_singleton, stripChars_rdropWhile,
      hspaces]
    rfl
  | cons hop hops ih =>
    have htext : blanks ++ (appended address (hop :: hops)).toList =
        (blanks ++ address.toList) ++ ',' :: ([' '] ++ (appended hop hops).toList) := by
      simp [appended, String.toList_append]
    have hhop := hcommas hop List.mem_cons_self
    have hrest := ih hhop (fun other hother => hcommas other (List.mem_cons_of_mem hop hother)) [' ']
      blank_spaces (fun cs => stripChars_cons_space (by decide) cs) (by simpa using hhop)
    rw [htext, rdropWhile_append_separator (by decide), List.splitOn_append_cons_self,
      List.map_append, hrest, List.splitOn_eq_singleton hfirst]
    simp [hspaces]

/-- What the walk finds in the part that the client supplies. -/
def suppliedHop (supplied : String) : Option String :=
  (((supplied.toList.dropWhile isSpace).splitOn ',').map String.ofList).reverse.findSome? hop

theorem findSome_hop_strip (parts : List (List Char)) :
    (parts.map String.ofList).reverse.findSome? hop =
      ((parts.map stripChars).map String.ofList).reverse.findSome? hop := by
  have hhop : hop ∘ String.ofList = hop ∘ String.ofList ∘ stripChars := by
    funext part
    have hstrip : strip (String.ofList part) = String.ofList (stripChars part) := by
      rw [strip, String.toList_ofList]
    rw [Function.comp_apply, Function.comp_apply, Function.comp_apply, ← hop_strip, hstrip]
  rw [← List.map_reverse, List.findSome?_map, hhop, List.map_map, ← List.map_reverse,
    List.findSome?_map]

theorem walk_forwardedFor (supplied : String) (hcomma : ',' ∉ real.toList)
    (hcommas : ∀ hop ∈ hops, ',' ∉ hop.toList) (htrusted : ∀ hop ∈ hops, isTrustedProxy hop = true) :
    (splitText (strip (forwardedFor supplied real hops)) ',').reverse.findSome? hop =
      (hop real).or (suppliedHop supplied) := by
  have htext : (forwardedFor supplied real hops).toList =
      supplied.toList ++ ',' :: ([' '] ++ (appended real hops).toList) := by
    simp [forwardedFor, appended, String.toList_append]
  have hentries : ((((([' '] ++ (appended real hops).toList).rdropWhile isSpace).splitOn ',').map
      String.ofList).reverse).findSome? hop = hop real := by
    have hskipped : (hops.map strip).reverse.findSome? hop = none := by
      rw [List.findSome?_eq_none_iff]
      intro part hpart
      obtain ⟨other, hother, rfl⟩ := List.mem_map.mp (List.mem_reverse.mp hpart)
      rw [hop_strip, hop_trusted (htrusted other hother)]
    rw [findSome_hop_strip, split_appended hcomma hcommas [' '] blank_spaces, List.map_map]
    change ((real :: hops).map strip).reverse.findSome? hop = _
    rw [List.map_cons, List.reverse_cons, List.findSome?_append, hskipped, Option.none_or,
      List.findSome?_singleton, hop_strip]
  rw [splitText, strip, String.toList_ofList, htext, stripChars_append_separator (by decide),
    List.splitOn_append_cons_self, List.map_append, List.reverse_append, List.findSome?_append,
    hentries, suppliedHop]

end Walk

/-- A request that reaches us through trusted proxies. -/
def proxied (peer : String) (realIp : Option String) (supplied real : String) (hops : List String) :
    Request := ⟨some peer, some (forwardedFor supplied real hops), realIp⟩

theorem getClientId_proxied {peer real : String} {hops : List String} (realIp : Option String)
    (supplied : String) (hpeer : isTrustedProxy peer = true) (hcomma : ',' ∉ real.toList)
    (hcommas : ∀ hop ∈ hops, ',' ∉ hop.toList) (htrusted : ∀ hop ∈ hops, isTrustedProxy hop = true)
    {id : String} (h : (hop real).or (suppliedHop supplied) = some id) :
    getClientId (proxied peer realIp supplied real hops) = id := by
  have hwalk := walk_forwardedFor supplied hcomma hcommas htrusted
  have hgiven : strip (forwardedFor supplied real hops) ≠ "" := by
    intro hempty
    rw [h, hempty] at hwalk
    have hnone : (splitText "" ',').reverse.findSome? hop = none := by decide
    rw [hnone] at hwalk
    cases hwalk
  simp [getClientId, proxied, hpeer, getForwardedClientId, hgiven, hwalk, h]

/-- The id does not depend on what the client supplies exactly when the client's own address is not
one that counts as a proxy. -/
theorem client_id_unspoofed_iff (peer : String) (realIp : Option String) (real : String)
    (hops : List String) (hpeer : isTrustedProxy peer = true) (given : strip real ≠ "")
    (hcomma : ',' ∉ real.toList) (hcommas : ∀ hop ∈ hops, ',' ∉ hop.toList)
    (htrusted : ∀ hop ∈ hops, isTrustedProxy hop = true) :
    (∀ supplied supplied', getClientId (proxied peer realIp supplied real hops) =
        getClientId (proxied peer realIp supplied' real hops)) ↔ isTrustedProxy real = false := by
  constructor
  · intro h
    by_contra hreal
    have hskip : hop real = none := hop_trusted (by simpa using hreal)
    have hid : ∀ supplied id, suppliedHop supplied = some id →
        getClientId (proxied peer realIp supplied real hops) = id := by
      intro supplied id hsupplied
      refine getClientId_proxied realIp supplied hpeer hcomma hcommas htrusted ?_
      rw [hskip, Option.none_or, hsupplied]
    have hsame := h "1.2.3.4" "5.6.7.8"
    rw [hid "1.2.3.4" "1.2.3.4" (by decide), hid "5.6.7.8" "5.6.7.8" (by decide)] at hsame
    revert hsame
    decide
  · intro hreal supplied supplied'
    have hid : ∀ supplied, getClientId (proxied peer realIp supplied real hops) = strip real := by
      intro supplied
      refine getClientId_proxied realIp supplied hpeer hcomma hcommas htrusted ?_
      rw [hop_untrusted given hreal, Option.some_or]
    rw [hid, hid]

theorem client_id_unspoofed_public :
    (∀ supplied supplied', getClientId (proxied "127.0.0.1" none supplied "8.8.8.8" ["10.0.0.2"]) =
        getClientId (proxied "127.0.0.1" none supplied' "8.8.8.8" ["10.0.0.2"])) ↔
      isTrustedProxy "8.8.8.8" = false :=
  client_id_unspoofed_iff "127.0.0.1" none "8.8.8.8" ["10.0.0.2"] (by decide) (by decide)
    (by decide) (by decide) (by decide)

theorem private_client_spoofs : ¬ ∀ peer realIp real hops, isTrustedProxy peer = true →
    strip real ≠ "" → ',' ∉ real.toList → (∀ hop ∈ hops, ',' ∉ hop.toList) →
    (∀ hop ∈ hops, isTrustedProxy hop = true) →
    ∀ supplied supplied', getClientId (proxied peer realIp supplied real hops) =
      getClientId (proxied peer realIp supplied' real hops) := by
  intro h
  have hsame := h "127.0.0.1" none "192.168.1.20" [] (by decide) (by decide) (by decide) (by simp)
    (by simp) "1.2.3.4" "5.6.7.8"
  revert hsame
  decide

end UniversityHelper.ClientIdentity
