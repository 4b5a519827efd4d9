import EpollGateway.Handler.Forwarding

/-! # Who the caller is, as a backend sees it

`inject_forwarded_headers` says who called: the address of the client in
`x-real-ip` and at the end of `x-forwarded-for`, the scheme in `x-forwarded-proto`,
the host that was asked for in `x-forwarded-host`. A backend that trusts these
headers relies on two things: that they arrive, and that a client cannot choose
them.

They arrive unless the client names one of them in its Connection header, because
`build_request` takes the headers named there for headers of the client's hop
(`identity_forwarded_iff`). The client cannot choose them as long as its request
has a Host (`identity_independent_iff`).
-/

namespace EpollGateway.Handler

open Bytes Http Upstream HttpReader

/-! ## The header map after the injection -/

/-- There is a Host header with a value. -/
def HasHost (headers : Headers) : Prop := (headers.lookup (ascii "host")).getD [] ≠ []

instance (headers : Headers) : Decidable (HasHost headers) :=
  inferInstanceAs (Decidable (_ ≠ _))

/-- The list of addresses with the client at its end. -/
def forwardedFor (headers : Headers) (clientIp : Bytes) : Bytes :=
  match headers.lookup (ascii "x-forwarded-for") with
  | some xff => xff ++ ascii ", " ++ clientIp
  | none => clientIp

/-- The map in front of the test for Host, for a known client. -/
def stampClient (headers : Headers) (clientIp : Bytes) : Headers :=
  ((headers.insert (ascii "x-forwarded-for") (forwardedFor headers clientIp)).insert
    (ascii "x-real-ip") clientIp).insert (ascii "x-forwarded-proto") (ascii "https")

variable {clientIp ip name t : Bytes} {headers h₁ h₂ : Headers}

lemma injectForwardedHeaders_eq (headers : Headers) (hip : clientIp ≠ []) :
    injectForwardedHeaders headers clientIp =
      match (stampClient headers clientIp).lookup (ascii "host") with
      | some host =>
        if host = [] then stampClient headers clientIp
        else (stampClient headers clientIp).insert (ascii "x-forwarded-host") host
      | none => stampClient headers clientIp := by
  unfold injectForwardedHeaders
  rw [if_neg hip]
  rfl

lemma lookup_stampClient (headers : Headers) (clientIp k : Bytes) :
    (stampClient headers clientIp).lookup k =
      if k = ascii "x-forwarded-proto" then some (ascii "https")
      else if k = ascii "x-real-ip" then some clientIp
      else if k = ascii "x-forwarded-for" then some (forwardedFor headers clientIp)
      else headers.lookup k := by
  unfold stampClient
  split
  · subst k
    exact AList.lookup_insert _
  · rename_i hproto
    rw [AList.lookup_insert_ne hproto]
    split
    · subst k
      exact AList.lookup_insert _
    · rename_i hreal
      rw [AList.lookup_insert_ne hreal]
      split
      · subst k
        exact AList.lookup_insert _
      · rename_i hfor
        exact AList.lookup_insert_ne hfor

lemma stampClient_identity (headers : Headers) (clientIp : Bytes) :
    (stampClient headers clientIp).lookup (ascii "x-real-ip") = some clientIp ∧
    (stampClient headers clientIp).lookup (ascii "x-forwarded-proto") = some (ascii "https") ∧
    (stampClient headers clientIp).lookup (ascii "x-forwarded-for") =
      some (forwardedFor headers clientIp) := by
  simp only [lookup_stampClient]
  simp [ascii]

/-- The whole map, name by name. -/
lemma lookup_injectForwardedHeaders (headers : Headers) (hip : clientIp ≠ []) (k : Bytes) :
    (injectForwardedHeaders headers clientIp).lookup k =
      if k = ascii "x-forwarded-host" ∧ HasHost headers then headers.lookup (ascii "host")
      else (stampClient headers clientIp).lookup k := by
  have hhost : (stampClient headers clientIp).lookup (ascii "host") =
      headers.lookup (ascii "host") := by
    rw [lookup_stampClient]
    simp [ascii]
  rw [injectForwardedHeaders_eq headers hip, hhost]
  rcases hlookup : headers.lookup (ascii "host") with _ | host
  · simp [HasHost, hlookup]
  · by_cases hnil : host = []
    · simp [HasHost, hlookup, hnil]
    · by_cases hk : k = ascii "x-forwarded-host"
      · subst hk
        simp [HasHost, hlookup, hnil]
      · simp [hnil, hk]

/-! ## A client's own identity headers

Two requests that differ in nothing but the headers the gateway means to set.
-/

/-- The headers that `inject_forwarded_headers` is to overwrite. -/
def overwrittenNames : List Bytes :=
  [ascii "x-real-ip", ascii "x-forwarded-proto", ascii "x-forwarded-host"]

/-- The same map, as far as a reader can tell. -/
def SameHeaders (h₁ h₂ : Headers) : Prop := ∀ k, h₁.lookup k = h₂.lookup k

/-- The same map, except for the headers to be overwritten. -/
def SameElsewhere (h₁ h₂ : Headers) : Prop :=
  ∀ k, k ∉ overwrittenNames → h₁.lookup k = h₂.lookup k

lemma SameElsewhere.host (h : SameElsewhere h₁ h₂) :
    h₁.lookup (ascii "host") = h₂.lookup (ascii "host") :=
  h _ (by simp [overwrittenNames, ascii])

lemma SameElsewhere.forwardedFor (h : SameElsewhere h₁ h₂) (clientIp : Bytes) :
    Handler.forwardedFor h₁ clientIp = Handler.forwardedFor h₂ clientIp := by
  have hfor := h (ascii "x-forwarded-for") (by simp [overwrittenNames, ascii])
  unfold Handler.forwardedFor
  rw [hfor]

lemma SameElsewhere.hasHost (h : SameElsewhere h₁ h₂) : HasHost h₁ ↔ HasHost h₂ := by
  unfold HasHost
  rw [h.host]

/-- In front of the test for Host only `x-forwarded-host` can still differ. -/
lemma SameElsewhere.stampClient (h : SameElsewhere h₁ h₂) (clientIp : Bytes) {k : Bytes}
    (hk : k ≠ ascii "x-forwarded-host") :
    (Handler.stampClient h₁ clientIp).lookup k = (Handler.stampClient h₂ clientIp).lookup k := by
  rw [lookup_stampClient, lookup_stampClient, h.forwardedFor]
  split
  · rfl
  · split
    · rfl
    · split
      · rfl
      · rename_i hproto hreal hfor
        exact h k (by simp [overwrittenNames, hproto, hreal, hk])

lemma stampClient_forwardedHost (headers : Headers) (clientIp : Bytes) :
    (stampClient headers clientIp).lookup (ascii "x-forwarded-host") =
      headers.lookup (ascii "x-forwarded-host") := by
  rw [lookup_stampClient]
  simp [ascii]

/-- What a client sends in the headers to be overwritten makes no difference,
exactly if it sends a Host with a value or the two requests agree on
`x-forwarded-host` anyway. -/
theorem identity_independent_iff (h₁ h₂ : Headers) (clientIp : Bytes) (hip : clientIp ≠ [])
    (hsame : SameElsewhere h₁ h₂) :
    SameHeaders (injectForwardedHeaders h₁ clientIp) (injectForwardedHeaders h₂ clientIp) ↔
      HasHost h₁ ∨ h₁.lookup (ascii "x-forwarded-host") = h₂.lookup (ascii "x-forwarded-host") := by
  unfold SameHeaders
  simp only [lookup_injectForwardedHeaders _ hip, ← hsame.hasHost]
  constructor
  · intro hall
    by_cases hhost : HasHost h₁
    · exact .inl hhost
    · -- without a Host the header of the client is still there
      have hforwarded := hall (ascii "x-forwarded-host")
      rw [if_neg (fun h => hhost h.2), if_neg (fun h => hhost h.2), stampClient_forwardedHost,
        stampClient_forwardedHost] at hforwarded
      exact .inr hforwarded
  · intro hcond k
    by_cases hk : k = ascii "x-forwarded-host"
    · subst hk
      rcases hcond with hhost | hforwarded
      · rw [if_pos ⟨rfl, hhost⟩, if_pos ⟨rfl, hhost⟩, hsame.host]
      · rw [stampClient_forwardedHost, stampClient_forwardedHost, hforwarded, hsame.host]
    · rw [if_neg (fun h => hk h.1), if_neg (fun h => hk h.1)]
      exact hsame.stampClient clientIp hk

/-- With a Host, `X-Real-IP` and `X-Forwarded-Host` of the client are without effect. -/
theorem identity_independent_host :
    SameElsewhere
      (({} : HttpParser).parse {} (ascii "GET / HTTP/1.1\r\nHost: a\r\n\r\n")).request.headers
      (({} : HttpParser).parse {}
        (ascii "GET / HTTP/1.1\r\nHost: a\r\nX-Real-IP: b\r\nX-Forwarded-Host: c\r\n\r\n")
        ).request.headers ∧
    SameHeaders
      (injectForwardedHeaders
        (({} : HttpParser).parse {} (ascii "GET / HTTP/1.1\r\nHost: a\r\n\r\n")).request.headers
        (ascii "10.0.0.9"))
      (injectForwardedHeaders
        (({} : HttpParser).parse {}
          (ascii "GET / HTTP/1.1\r\nHost: a\r\nX-Real-IP: b\r\nX-Forwarded-Host: c\r\n\r\n")
          ).request.headers (ascii "10.0.0.9")) := by
  have hsame : SameElsewhere
      (({} : HttpParser).parse {} (ascii "GET / HTTP/1.1\r\nHost: a\r\n\r\n")).request.headers
      (({} : HttpParser).parse {}
        (ascii "GET / HTTP/1.1\r\nHost: a\r\nX-Real-IP: b\r\nX-Forwarded-Host: c\r\n\r\n")
        ).request.headers := by
    have h₁ : (({} : HttpParser).parse {}
        (ascii "GET / HTTP/1.1\r\nHost: a\r\n\r\n")).request.headers.entries =
        [⟨ascii "host", ascii "a"⟩] := by decide +kernel
    have h₂ : (({} : HttpParser).parse {}
        (ascii "GET / HTTP/1.1\r\nHost: a\r\nX-Real-IP: b\r\nX-Forwarded-Host: c\r\n\r\n")
        ).request.headers.entries =
        [⟨ascii "x-forwarded-host", ascii "c"⟩, ⟨ascii "x-real-ip", ascii "b"⟩,
          ⟨ascii "host", ascii "a"⟩] := by decide +kernel
    intro k hk
    simp only [overwrittenNames, List.mem_cons, List.not_mem_nil, or_false, not_or] at hk
    unfold AList.lookup
    rw [h₁, h₂]
    exact ((List.dlookup_cons_ne _ _ hk.2.2).trans (List.dlookup_cons_ne _ _ hk.1)).symm
  exact ⟨hsame, (identity_independent_iff _ _ (ascii "10.0.0.9") (by decide) hsame).mpr
    (.inl (by decide +kernel))⟩

/-- Without a Host the `X-Forwarded-Host` of the client goes through: two accepted
requests that differ in nothing else give two maps. -/
theorem forwardedHost_survives :
    (({} : HttpParser).parse {} (ascii "GET / HTTP/1.1\r\n\r\n")).complete = true ∧
    (({} : HttpParser).parse {}
      (ascii "GET / HTTP/1.1\r\nX-Forwarded-Host: evil\r\n\r\n")).complete = true ∧
    SameElsewhere
      (({} : HttpParser).parse {} (ascii "GET / HTTP/1.1\r\n\r\n")).request.headers
      (({} : HttpParser).parse {}
        (ascii "GET / HTTP/1.1\r\nX-Forwarded-Host: evil\r\n\r\n")).request.headers ∧
    (injectForwardedHeaders
      (({} : HttpParser).parse {} (ascii "GET / HTTP/1.1\r\n\r\n")).request.headers
      (ascii "10.0.0.9")).lookup (ascii "x-forwarded-host") = none ∧
    (injectForwardedHeaders
      (({} : HttpParser).parse {}
        (ascii "GET / HTTP/1.1\r\nX-Forwarded-Host: evil\r\n\r\n")).request.headers
      (ascii "10.0.0.9")).lookup (ascii "x-forwarded-host") = some (ascii "evil") := by
  refine ⟨by decide +kernel, by decide +kernel, ?_, by decide +kernel, by decide +kernel⟩
  have h₁ : (({} : HttpParser).parse {}
      (ascii "GET / HTTP/1.1\r\n\r\n")).request.headers.entries = [] := by decide +kernel
  have h₂ : (({} : HttpParser).parse {}
      (ascii "GET / HTTP/1.1\r\nX-Forwarded-Host: evil\r\n\r\n")).request.headers.entries =
      [⟨ascii "x-forwarded-host", ascii "evil"⟩] := by decide +kernel
  intro k hk
  simp only [overwrittenNames, List.mem_cons, List.not_mem_nil, or_false, not_or] at hk
  unfold AList.lookup
  rw [h₁, h₂, List.dlookup_cons_ne _ _ hk.2.2]

/-! ## The lines on the backend connection -/

/-- The headers that say who called. -/
def identityNames : List Bytes :=
  [ascii "x-real-ip", ascii "x-forwarded-proto", ascii "x-forwarded-for"]

/-- The text of a network address: no blank, no control byte, no comma. -/
structure AddressText (ip : Bytes) : Prop where
  ne : ip ≠ []
  plain : PlainText ip
  comma : 44 ∉ ip

/-- The last element of a comma-separated list. -/
def lastElement (list : Bytes) : Bytes := trim (list.rtakeWhile (· ≠ 44))

/-- The head names the caller once in each of the three headers. -/
def IdentityForwarded (bytes clientIp : Bytes) : Prop :=
  ∃ line fields rest, readHead bytes = some (line, fields, rest) ∧
    valuesOf (ascii "x-real-ip") fields = [clientIp] ∧
    valuesOf (ascii "x-forwarded-proto") fields = [ascii "https"] ∧
    ∃ list, valuesOf (ascii "x-forwarded-for") fields = [list] ∧
      lastElement list = clientIp

/-- A map holds a name once. -/
lemma filter_entries_name (headers : Headers) (k : Bytes) :
    (headers.entries.filter fun e => e.1 = k).map (·.2) = (headers.lookup k).toList := by
  obtain ⟨entries, hnodup⟩ := headers
  unfold AList.lookup
  dsimp only
  induction entries with
  | nil => simp
  | cons e es ih =>
    obtain ⟨name, value⟩ := e
    rw [List.nodupKeys_cons] at hnodup
    by_cases hk : name = k
    · subst hk
      have hnone : List.dlookup name es = none := List.dlookup_eq_none.mpr hnodup.1
      have hrest := ih hnodup.2
      rw [hnone] at hrest
      simp [hrest]
    · rw [List.dlookup_cons_ne _ _ (Ne.symm hk)]
      simpa [hk] using ih hnodup.2

/-- A header of the map on the backend connection: dropped if it belongs to the
client's hop, otherwise there once. -/
lemma valuesOf_forwardedEntries (hlower : ∀ k v, headers.lookup k = some v → lower k = k)
    (name : Bytes) :
    valuesOf name (trimFields (forwardedEntries headers)) =
      if isHopByHopHeader name || name ∈ connectionTokens headers then []
      else (headers.lookup name).toList.map trim := by
  have hentries : ∀ e ∈ headers.entries, lower e.1 = e.1 := fun e he =>
    hlower e.1 e.2 (AList.mem_lookup_iff.mpr he)
  have hvalues : valuesOf name (trimFields (forwardedEntries headers)) =
      (headers.entries.filter fun e => decide (e.1 = name) &&
        !(isHopByHopHeader name || name ∈ connectionTokens headers)).map fun e => trim e.2 := by
    simp only [valuesOf, trimFields, forwardedEntries, List.filter_map,
      List.map_map, List.filter_filter]
    congr 1
    apply List.filter_congr
    intro e he
    by_cases hname : e.1 = name
    · subst hname
      simp [hentries e he]
    · simp [hentries e he, hname]
  rw [hvalues]
  split
  · rename_i hdrop
    simp [hdrop]
  · rename_i hkeep
    rw [← filter_entries_name]
    simp [hkeep]

lemma trimmed_of_plainText (h : PlainText t) : Trimmed t := by
  have hblank : ∀ c : UInt8, 0x20 < c ∧ c ≠ 0x7F → isBlank c = false :=
    forall_byte (by decide +kernel)
  constructor
  · intro c hc
    exact hblank c (h c (List.mem_of_mem_head? hc))
  · intro c hc
    exact hblank c (h c (List.mem_of_getLast? hc))

lemma oneLine_of_plainText (h : PlainText t) : OneLineValue t := by
  intro c hc
  have hplain := h c hc
  have hle : 0x20 ≤ c := UInt8.le_of_lt hplain.1
  simp [isFieldByte, hle, hplain.2]

lemma unbroken_of_plainText (h : PlainText t) : Unbroken t :=
  unbroken_of fun c hc => isFieldByte_clean c (oneLine_of_plainText h c hc)

/-- The address at the end of a list is its last element, with or without blanks
around the list. -/
lemma lastElement_append (list : Bytes) (hip : AddressText ip) :
    lastElement (trim (list ++ ascii ", " ++ ip)) = ip := by
  have htrimmed := trimmed_of_plainText hip.plain
  -- trimming stops at the comma in front and at the address behind
  have hlist : trim (list ++ ascii ", " ++ ip) = list.dropWhile isBlank ++ 44 :: sp :: ip := by
    have hbytes : list ++ ascii ", " ++ ip = list ++ 44 :: sp :: ip := by
      simp [ascii, sp]
    have hfront : (list ++ 44 :: sp :: ip).dropWhile isBlank =
        list.dropWhile isBlank ++ 44 :: sp :: ip := by
      rw [List.dropWhile_append]
      split
      · rename_i hnil
        rw [List.isEmpty_iff.mp hnil]
        simp [isBlank, sp, tab]
      · rfl
    unfold trim
    rw [hbytes, hfront]
    apply rdropWhile_of_getLast
    intro c hc
    apply htrimmed.2
    have hlast : (list.dropWhile isBlank ++ 44 :: sp :: ip).getLast? = ip.getLast? := by
      rw [show list.dropWhile isBlank ++ 44 :: sp :: ip = (list.dropWhile isBlank ++ [44, sp]) ++ ip
        by simp]
      exact List.getLast?_append_of_ne_nil _ hip.ne
    rwa [hlast] at hc
  have hne : ∀ c ∈ (sp :: ip), decide (c ≠ 44) = true := by
    intro c hc
    rcases List.mem_cons.mp hc with rfl | hc
    · decide
    · simpa using fun heq : c = 44 => hip.comma (heq ▸ hc)
  have hlast : (list.dropWhile isBlank ++ 44 :: sp :: ip).rtakeWhile (· ≠ 44) = sp :: ip := by
    have hback : ∀ c ∈ (sp :: ip).reverse, decide (c ≠ 44) = true :=
      fun c hc => hne c (List.mem_reverse.mp hc)
    rw [show list.dropWhile isBlank ++ 44 :: sp :: ip = (list.dropWhile isBlank ++ [44]) ++ (sp :: ip)
      by simp]
    unfold List.rtakeWhile
    rw [List.reverse_append, List.takeWhile_append_of_pos hback]
    simp
  unfold lastElement
  rw [hlist, hlast, trim_sp_cons htrimmed]

lemma lastElement_address (hip : AddressText ip) : lastElement (trim ip) = ip := by
  have htrimmed := trimmed_of_plainText hip.plain
  have hall : ip.rtakeWhile (· ≠ 44) = ip := by
    rw [List.rtakeWhile_eq_self_iff]
    intro c hc
    simpa using fun heq : c = 44 => hip.comma (heq ▸ hc)
  unfold lastElement
  rw [trim_of_trimmed htrimmed, hall, trim_of_trimmed htrimmed]

/-- The names in Connection are those of the client: the injection leaves that
header alone. -/
lemma connectionTokens_inject (headers : Headers) (hip : clientIp ≠ []) :
    connectionTokens (injectForwardedHeaders headers clientIp) = connectionTokens headers := by
  have hlookup : (injectForwardedHeaders headers clientIp).lookup (ascii "connection") =
      headers.lookup (ascii "connection") := by
    rw [lookup_injectForwardedHeaders headers hip, lookup_stampClient]
    simp [ascii]
  unfold connectionTokens
  rw [hlookup]

/-- The three headers are not in the list of hop-by-hop names. -/
lemma identityNames_endToEnd (h : name ∈ identityNames) :
    isHopByHopHeader name = false ∧ name ≠ ascii "host" ∧ name ≠ ascii "content-length" := by
  have hall : ∀ name ∈ identityNames, isHopByHopHeader name = false ∧ name ≠ ascii "host" ∧
      name ≠ ascii "content-length" := by decide +kernel
  exact hall name h

/-- A header that is neither Host nor Content-Length comes from the map. -/
lemma valuesOf_message_of_ne (p : Params) (hhost : name ≠ ascii "host")
    (hlength : name ≠ ascii "content-length") :
    valuesOf name (trimFields (message p).fields) =
      valuesOf name (trimFields (forwardedEntries p.headers)) := by
  simp only [valuesOf, trimFields, message, List.map_cons, List.map_append]
  split <;>
    simp [lower_host, lower_contentLength, hhost.symm, hlength.symm]

/-- An identity header on the backend connection. -/
lemma valuesOf_identity {p : Params} (hip : clientIp ≠ [])
    (hp : p.headers = injectForwardedHeaders headers clientIp)
    (hforwardable : Forwardable p.headers) (name : Bytes) (hname : name ∈ identityNames) :
    valuesOf name (trimFields (message p).fields) =
      if name ∈ connectionTokens headers then []
      else (p.headers.lookup name).toList.map trim := by
  obtain ⟨hhop, hhost, hlength⟩ := identityNames_endToEnd hname
  rw [valuesOf_message_of_ne p hhost hlength,
    valuesOf_forwardedEntries fun k v hlookup => (hforwardable k v hlookup).1.lower_case]
  simp [hhop, hp, connectionTokens_inject headers hip]

/-- The request as it is built from a client's request and address. -/
def callerParams (host : Bytes) (port : Nat) (req : HttpRequest) (clientIp : Bytes) : Params :=
  { host := host
    port := port
    method := req.method
    path := req.path
    headers := injectForwardedHeaders req.headers clientIp
    body := req.body }

/-- The lines that are read off a built request. -/
lemma readHead_buildRequest {p : Params} (hmethod : PlainText p.method)
    (hpath : PlainText p.path) (hfields : ∀ f ∈ (message p).fields, CleanField f) :
    ∃ line, readHead (buildRequest p) =
      some (line, trimFields (message p).fields, p.body) := by
  have hunbroken : Unbroken (p.method ++ [sp] ++ p.path ++ [sp] ++ ascii "HTTP/1.1") :=
    ((((unbroken_of_plainText hmethod).append (by decide)).append
      (unbroken_of_plainText hpath)).append (by decide)).append (by decide)
  refine ⟨p.method ++ [sp] ++ p.path ++ [sp] ++ ascii "HTTP/1.1", ?_⟩
  rw [← readHead_write hunbroken hfields, buildRequest_eq_write]
  simp [HttpReader.Message.write, message]

/-- The caller reaches the backend in all three headers, exactly if the client
does not name one of them in its Connection header. -/
theorem identity_forwarded_iff (frags : List Bytes) (host : Bytes) (port : Nat) (clientIp : Bytes)
    (haccepted : (feedFragments {} {} [] frags).outcome = .complete)
    (hip : AddressText clientIp) (hhost : DottedQuad host) :
    IdentityForwarded
        (buildRequest
          (callerParams host port (feedFragments {} {} [] frags).request clientIp)) clientIp ↔
      ∀ name ∈ identityNames,
        name ∉ connectionTokens (feedFragments {} {} [] frags).request.headers := by
  have hclean : (feedFragments {} {} [] frags).request.Clean := (sound_of_complete haccepted).1
  generalize (feedFragments {} {} [] frags).request = req at *
  have hforwardable : Forwardable (callerParams host port req clientIp).headers :=
    (forwardable_of_clean hclean).injectForwardedHeaders (oneLine_of_plainText hip.plain)
  have hvalues := valuesOf_identity (p := callerParams host port req clientIp) hip.ne rfl
    hforwardable
  obtain ⟨line, hread⟩ := readHead_buildRequest (p := callerParams host port req clientIp)
    hclean.method hclean.path (message_fields_clean hhost.oneLine hforwardable)
  constructor
  · rintro ⟨line', fields, rest, hread', hreal, hproto, list, hfor, -⟩ name hname hmem
    -- the header that is named has no value on the backend connection
    have hnone := hvalues name hname
    rw [if_pos hmem] at hnone
    rw [hread] at hread'
    cases hread'
    simp only [identityNames, List.mem_cons, List.not_mem_nil, or_false] at hname
    rcases hname with rfl | rfl | rfl
    · rw [hreal] at hnone
      cases hnone
    · rw [hproto] at hnone
      cases hnone
    · rw [hfor] at hnone
      cases hnone
  · intro hfree
    have hlookup : ∀ name, (callerParams host port req clientIp).headers.lookup name = _ :=
      fun name => lookup_injectForwardedHeaders req.headers hip.ne name
    obtain ⟨hreal, hproto, hfor⟩ := stampClient_identity req.headers clientIp
    have hall : ∀ name ∈ identityNames,
        valuesOf name
          (trimFields (message (callerParams host port req clientIp)).fields) =
        ((stampClient req.headers clientIp).lookup name).toList.map trim := by
      intro name hname
      have hne : name ≠ ascii "x-forwarded-host" := by
        rintro rfl
        exact absurd hname (by simp [identityNames, ascii])
      rw [hvalues name hname, if_neg (hfree name hname), hlookup, if_neg (fun h => hne h.1)]
    refine ⟨line, _, _, hread, ?_, ?_, trim (forwardedFor req.headers clientIp), ?_, ?_⟩
    · rw [hall _ (by simp [identityNames]), hreal]
      simp [trim_of_trimmed (trimmed_of_plainText hip.plain)]
    · rw [hall _ (by simp [identityNames]), hproto]
      simp [ascii, trim, isBlank, sp, tab, List.rdropWhile]
    · rw [hall _ (by simp [identityNames]), hfor]
      rfl
    · unfold forwardedFor
      split
      · exact lastElement_append _ hip
      · exact lastElement_address hip

/-- A request with a list of proxies and a Connection header that names another
header. -/
theorem identity_forwarded_list :
    IdentityForwarded
      (buildRequest (callerParams (ascii "10.0.0.1") 80 (feedFragments {} {} []
        [ascii "GET / HTTP/1.1\r\nConnection: x-a\r\nX-Forwarded-For: 1.1.1.1\r\n\r\n"]).request
        (ascii "10.0.0.9"))) (ascii "10.0.0.9") :=
  (identity_forwarded_iff
    [ascii "GET / HTTP/1.1\r\nConnection: x-a\r\nX-Forwarded-For: 1.1.1.1\r\n\r\n"]
    (ascii "10.0.0.1") 80 (ascii "10.0.0.9") (by decide +kernel)
    ⟨by decide, by simp [PlainText, ascii], by decide⟩ (by decide +kernel)).mpr (by decide +kernel)

/-- A client that names `x-real-ip` in its Connection header takes it out of the
request that the backend gets. -/
theorem realIp_dropped :
    (feedFragments {} {} []
      [ascii "GET / HTTP/1.1\r\nConnection: X-Real-IP\r\n\r\n"]).outcome = .complete ∧
    (readHead
      (buildRequest (callerParams (ascii "10.0.0.1") 80 (feedFragments {} {} []
        [ascii "GET / HTTP/1.1\r\nConnection: X-Real-IP\r\n\r\n"]).request
        (ascii "10.0.0.9")))).map (·.2.1) =
      some [(ascii "Host", ascii "10.0.0.1:80"), (ascii "x-forwarded-proto", ascii "https"),
        (ascii "x-forwarded-for", ascii "10.0.0.9")] ∧
    ¬ IdentityForwarded
      (buildRequest (callerParams (ascii "10.0.0.1") 80 (feedFragments {} {} []
        [ascii "GET / HTTP/1.1\r\nConnection: X-Real-IP\r\n\r\n"]).request
        (ascii "10.0.0.9"))) (ascii "10.0.0.9") := by
  have hfields : (readHead
      (buildRequest (callerParams (ascii "10.0.0.1") 80 (feedFragments {} {} []
        [ascii "GET / HTTP/1.1\r\nConnection: X-Real-IP\r\n\r\n"]).request
        (ascii "10.0.0.9")))).map (·.2.1) =
      some [(ascii "Host", ascii "10.0.0.1:80"), (ascii "x-forwarded-proto", ascii "https"),
        (ascii "x-forwarded-for", ascii "10.0.0.9")] := by decide +kernel
  refine ⟨by decide +kernel, hfields, ?_⟩
  rintro ⟨line, fields, rest, hread, hreal, -⟩
  rw [hread] at hfields
  cases hfields
  exact absurd hreal (by decide +kernel)

end EpollGateway.Handler
