import ModularHost.Connector.Dispatcher
import ModularHost.Proofs.Json.Printing
/-!
# Requests as texts

A request can be handed to the dispatcher as it is, or as its text. The text is read back as the
request it was written from (`ServiceRequest.decodeText_of_reads`), so the two ways have the same
answer and the same effect (`Dispatcher.dispatch_written`). That takes data which can be read back:
with whole numbers of 64 bits only, and with one bracket less open than a reader allows, since the
request has a bracket of its own. The data are a value as a map holds it, with each key once and
the keys in order (`Json.normal`): nothing else is a request's data.
-/

namespace ModularHost

/-! ## Credentials -/

/-- Credentials as they are written field by field. -/
def Credentials.written (c : Credentials) : Json :=
  .obj [("username", .str c.username), ("password", .str c.password)]

namespace Credentials

open Json.Decoder

theorem agrees_decoder : Credentials.decoder.Agrees := by
  refine agrees_record fun f hf => ?_
  simp only [List.mem_cons, List.not_mem_nil, or_false] at hf
  rcases hf with rfl | rfl
  · exact agrees_map (agrees_text _) _
  · exact agrees_map (agrees_text _) _

theorem toJson_eq (c : Credentials) :
    c.toJson = .obj [("password", .str c.password), ("username", .str c.username)] := by
  simp only [toJson, Json.ofMembers, sortMembers, List.foldl_cons, List.foldl_nil, insertMember,
    String.reduceEq, String.reduceLT, if_true, if_false]

end Credentials

namespace ServiceRequest

open Json.Decoder

/-- A request as it is written field by field. -/
def written (r : ServiceRequest) : Json :=
  .obj ([("route", .str r.route), ("method", .str r.method), ("data", r.data)]
    ++ (r.credentials.map fun c => ("credentials", c.written)).toList)

theorem agrees_decoder : ServiceRequest.decoder.Agrees := by
  refine agrees_record fun f hf => ?_
  simp only [List.mem_cons, List.not_mem_nil, or_false] at hf
  rcases hf with rfl | rfl | rfl | rfl
  · exact agrees_map (agrees_text _) _
  · exact agrees_map (agrees_text _) _
  · exact agrees_map agrees_any _
  · exact agrees_map (agrees_optional Credentials.agrees_decoder) _

variable {r : ServiceRequest}

/-- A request is decoded from what it is written as. -/
theorem decode_written (hdata : r.data.normal = r.data) :
    ServiceRequest.decoder.decode r.written = .ok r := by
  obtain ⟨route, method, data, _ | c⟩ := r
  · change Except.ok (ServiceRequest.mk route method data.normal none) = _
    rw [hdata]
  · change Except.ok (ServiceRequest.mk route method data.normal (some c)) = _
    rw [hdata]

theorem toJson_eq (r : ServiceRequest) :
    r.toJson = .obj ((r.credentials.map fun c => ("credentials", c.toJson)).toList ++
      [("data", r.data), ("method", .str r.method), ("route", .str r.route)]) := by
  obtain ⟨route, method, data, _ | c⟩ := r <;>
    simp only [toJson, Json.ofMembers, sortMembers, Option.map_none, Option.map_some,
      Option.toList_none, Option.toList_some, List.append_nil, List.cons_append, List.nil_append,
      List.foldl_cons, List.foldl_nil, insertMember, String.reduceEq, String.reduceLT, if_true,
      if_false]

/-- So it is from its members in the order of the keys. -/
theorem decode_toJson (hdata : r.data.normal = r.data) :
    ServiceRequest.decoder.decode r.toJson = .ok r := by
  obtain ⟨route, method, data, _ | c⟩ := r
  · rw [toJson_eq]
    change Except.ok (ServiceRequest.mk route method data.normal none) = _
    rw [hdata]
  · rw [toJson_eq]
    simp only [Option.map_some, Credentials.toJson_eq]
    change Except.ok (ServiceRequest.mk route method data.normal (some c)) = _
    rw [hdata]

/-! What is written is as plain as the data, and nests one bracket deeper. -/

theorem plain_written (h : r.data.Plain) : r.written.Plain := by
  obtain ⟨route, method, data, _ | c⟩ := r
  · exact ⟨trivial, trivial, h, trivial⟩
  · exact ⟨trivial, trivial, h, ⟨trivial, trivial, trivial⟩, trivial⟩

theorem plain_toJson (h : r.data.Plain) : r.toJson.Plain := by
  rw [toJson_eq]
  obtain ⟨route, method, data, _ | c⟩ := r
  · exact ⟨h, trivial, trivial, trivial⟩
  · simp only [Option.map_some, Credentials.toJson_eq]
    exact ⟨⟨trivial, trivial, trivial⟩, h, trivial, trivial, trivial⟩

theorem nesting_written_le (h : r.data.nesting ≤ 126) : r.written.nesting ≤ Json.depthLimit := by
  obtain ⟨route, method, data, _ | c⟩ := r
  · have hnesting : max 0 (max 0 (max data.nesting 0)) + 1 ≤ 127 := by
      dsimp only at h
      omega
    exact hnesting
  · have hnesting : max 0 (max 0 (max data.nesting (max 1 0))) + 1 ≤ 127 := by
      dsimp only at h
      omega
    exact hnesting

theorem nesting_toJson_le (h : r.data.nesting ≤ 126) : r.toJson.nesting ≤ Json.depthLimit := by
  rw [toJson_eq]
  obtain ⟨route, method, data, _ | c⟩ := r
  · have hnesting : max data.nesting 0 + 1 ≤ 127 := by
      dsimp only at h
      omega
    exact hnesting
  · have hnesting : max 1 (max data.nesting 0) + 1 ≤ 127 := by
      dsimp only at h
      omega
    simp only [Option.map_some, Credentials.toJson_eq]
    exact hnesting

end ServiceRequest

namespace Dispatcher

variable {H σ : Type}

theorem dispatch_of_decodeText {text : String} {r : ServiceRequest}
    (h : ServiceRequest.decoder.decodeText text = .ok r) (d : Dispatcher H)
    (handle : Handling H σ) (s : σ) : d.dispatch handle s text = d.dispatchRequest handle s r := by
  rw [dispatch, h]

/-- **A request's text is answered as the request**, with the same effect. -/
theorem dispatch_written (d : Dispatcher H) (handle : Handling H σ) (s : σ) (r : ServiceRequest)
    (hdata : r.data.normal = r.data) (hplain : r.data.Plain) (hdepth : r.data.nesting ≤ 126) :
    (ServiceRequest.decoder.decodeText r.written.text = .ok r ∧
      d.dispatch handle s r.written.text = d.dispatchRequest handle s r) ∧
    ServiceRequest.decoder.decodeText r.toJson.text = .ok r ∧
      d.dispatch handle s r.toJson.text = d.dispatchRequest handle s r := by
  have hread : ∀ v : Json, v.Plain → v.nesting ≤ Json.depthLimit →
      ServiceRequest.decoder.decode v = .ok r → ServiceRequest.decoder.decodeText v.text = .ok r :=
    fun v hv hdeep => (Json.Decoder.decodeText_text ServiceRequest.agrees_decoder hv hdeep).2
  have hwritten := hread r.written (ServiceRequest.plain_written hplain)
    (ServiceRequest.nesting_written_le hdepth) (ServiceRequest.decode_written hdata)
  have hsorted := hread r.toJson (ServiceRequest.plain_toJson hplain)
    (ServiceRequest.nesting_toJson_le hdepth) (ServiceRequest.decode_toJson hdata)
  exact ⟨⟨hwritten, dispatch_of_decodeText hwritten d handle s⟩,
    hsorted, dispatch_of_decodeText hsorted d handle s⟩

/-- Credentials, a name beyond ASCII, a line break and both extremes of the numbers. -/
def tideRequest : ServiceRequest :=
  { route := "assets"
    method := "störe\n"
    data := .obj [("depths", .arr [.int (-9223372036854775808), .int 18446744073709551615]),
      ("név", .null)]
    credentials := some ⟨"ada", "\"pw\""⟩ }

/-- The one route of a host that answers each request with its data and counts them. -/
def tideDispatcher : Dispatcher Unit := ⟨[("assets", ⟨(), .basic "ada" "\"pw\""⟩)]⟩

theorem dispatch_written_tides :
    (tideRequest.data.normal = tideRequest.data ∧ tideRequest.data.Plain ∧
      tideRequest.data.nesting ≤ 126) ∧
    tideDispatcher.dispatch (fun _ count _ data => (.ok data, count + 1)) 0
      tideRequest.written.text = (.ok tideRequest.data, 1) := by
  have hdata : tideRequest.data.normal = tideRequest.data := by
    have hkeys : ("név" : String) ≠ "depths" ∧ ¬ ("név" : String) < "depths" := by decide
    simp only [tideRequest, Json.normal, Json.normalItems, Json.normalMembers, sortMembers,
      List.foldl_cons, List.foldl_nil, insertMember, if_neg hkeys.1, if_neg hkeys.2]
  have hplain : tideRequest.data.Plain := by
    simp [tideRequest, Json.Plain, Json.PlainItems, Json.PlainMembers]
  have hdepth : tideRequest.data.nesting ≤ 126 := by decide
  refine ⟨⟨hdata, hplain, hdepth⟩, ?_⟩
  rw [(dispatch_written tideDispatcher (fun _ count _ data => (.ok data, count + 1)) 0 tideRequest
    hdata hplain hdepth).1.2]
  rfl

end Dispatcher
end ModularHost
