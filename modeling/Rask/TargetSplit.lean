import Rask.ReadLoop

/-! # The Split of the Target

    What `request_process` makes of a target that the parser has delivered
    inside the buffer, whatever bytes it has:

    * **`SplitExactly`**: path and arguments are the parts of the target
      before and behind its first question mark, in place.
    * **`target_split`**: a target is rejected if and only if it has two
      adjacent dots, and split exactly otherwise.
-/

namespace Rask

/-- The path and the arguments of `request` are the parts of the target of
    `parsed`, in the same buffer. -/
structure SplitExactly (parsed request : Request) : Prop where
  buffer : request.buffer = parsed.buffer
  path_inRange : request.path.InRange request.buffer
  url_args_inRange : request.url_args.InRange request.buffer
  path_start : request.path.data = parsed.path.data
  no_question : QUESTION ∉ request.path.bytes request.buffer
  /-- There is no question mark, or the target was cut at the first one. -/
  parts :
    (QUESTION ∉ parsed.target ∧ request.path = parsed.path ∧ request.url_args = Str.null) ∨
      (request.url_args.data ≠ none ∧ parsed.target
        = request.path.bytes request.buffer ++ QUESTION :: request.url_args.bytes request.buffer)

/-- What `request_process` does with the target of `parsed`, the request that
    its loop has left behind. -/
structure TargetSplit (phr_parse_request : PhrParser) (reads : List ReadResult)
    (request parsed : Request) (rest : List ReadResult) : Prop where
  rejected :
    (∃ answered reads', request_process phr_parse_request reads request
      = .returned BAD_REQUEST answered reads') ↔ HasDotDot parsed.target
  /-- The two scans find the parts of every other target. -/
  split : ¬ HasDotDot parsed.target →
    ∃ request', is_request_valid parsed = .ok true ∧ parse_url_args parsed = .ok request' ∧
      SplitExactly parsed request'
  /-- So the request is accepted as soon as there is a header. -/
  answered : ¬ HasDotDot parsed.target →
    (∃ last, parsed.headers.getLast? = some last ∧ last.value.data ≠ none) →
    ∃ accepted, request_process phr_parse_request reads request = .returned OK accepted rest
  accepted : ∀ accepted reads', request_process phr_parse_request reads request
      = .returned OK accepted reads' → SplitExactly parsed accepted

section split
variable {phr_parse_request : PhrParser} {reads rest : List ReadResult} {request parsed : Request}

/-! ### The parts -/

theorem Request.split_path_data (request : Request) : request.split.path.data = request.path.data := by
  unfold Request.split Request.cut
  split <;> rfl

/-- The arguments end where the target ends. -/
theorem Request.split_url_args_inRange (hr : request.path.InRange request.buffer) :
    request.split.url_args.InRange request.split.buffer := by
  unfold Request.split
  split
  · next hq =>
    have hlt : (target_path request.target).length < request.path.size := by
      obtain ⟨p, q, htarget, hp⟩ := List.eq_append_cons_of_mem hq
      rw [← Str.length_bytes hr]
      show _ < request.target.length
      rw [htarget, target_path_append hp]
      simp
    cases hdata : request.path.data with
    | none => simp [Request.target, Str.bytes, hdata] at hq
    | some off =>
      have hle : off + request.path.size ≤ request.buffer.length := by
        simpa only [Str.InRange, hdata] using hr
      simp only [Request.cut, Str.InRange, hdata, Option.map_some]
      omega
  · rfl

theorem split_exactly (hr : parsed.path.InRange parsed.buffer) : SplitExactly parsed parsed.split := by
  have hbuffer := parsed.split_frame.1
  refine ⟨hbuffer, Request.split_path_inRange hr, Request.split_url_args_inRange hr,
    parsed.split_path_data, ?_, ?_⟩
  · rw [Request.split_path_bytes hr]
    intro hmem
    have hne := List.mem_takeWhile_imp hmem
    simp at hne
  · by_cases hq : QUESTION ∈ parsed.target
    · refine Or.inr ⟨?_, ?_⟩
      · unfold Request.split
        rw [if_pos hq]
        cases hdata : parsed.path.data with
        | none => simp [Request.target, Str.bytes, hdata] at hq
        | some off => simp [Request.cut, hdata]
      · obtain ⟨p, q, htarget, hp⟩ := List.eq_append_cons_of_mem hq
        rw [Request.split_path_bytes hr, Request.split_url_args_bytes hr htarget hp, htarget,
          target_path_append hp]
    · refine Or.inl ⟨hq, ?_⟩
      unfold Request.split
      rw [if_neg hq]
      exact ⟨rfl, rfl⟩

/-- `_parse_body` leaves the parts as they are. -/
theorem SplitExactly.body {request' : Request} (h : SplitExactly parsed request)
    (hbody : parse_body request = .ok request') : SplitExactly parsed request' := by
  rw [parse_body_ok hbody]
  exact ⟨h.buffer, h.path_inRange, h.url_args_inRange, h.path_start, h.no_question, h.parts⟩

/-! ### The whole of `request_process` -/

/-- **The target** is rejected if and only if it has two adjacent dots; any
    other one is split exactly. -/
theorem target_split
    (hread : request_read phr_parse_request reads request.start = .parsed parsed rest)
    (hr : parsed.path.InRange parsed.buffer) (hpos : 0 < parsed.path.size) :
    TargetSplit phr_parse_request reads request parsed rest := by
  have hprocess : request_process phr_parse_request reads request
      = (ReadOutcome.parsed parsed rest).finish := by rw [request_process, hread]
  have hfinish := request_finish_eq hr hpos
  obtain ⟨_, _, _, _, _, _, hnum⟩ := request_read_parsed_out hread
  constructor
  · constructor
    · rintro ⟨answered, reads', h⟩
      by_contra hdots
      rw [hprocess, ReadOutcome.finish, hfinish, if_neg hdots] at h
      -- a request that is not rejected is accepted or faults
      cases hbody : parse_body parsed.split with
      | error f =>
        rw [hbody] at h
        cases h
      | ok accepted =>
        rw [hbody] at h
        cases h
    · intro hdots
      refine ⟨parsed, rest, ?_⟩
      simp only [hprocess, ReadOutcome.finish, hfinish, if_pos hdots]
  · intro hdots
    refine ⟨parsed.split, ?_, parse_url_args_eq hr, split_exactly hr⟩
    rw [is_request_valid_eq hr hpos, decide_eq_true hdots]
  · rintro hdots ⟨last, hlast, hvalue⟩
    obtain ⟨value, hvalue⟩ := Option.ne_none_iff_exists'.mp hvalue
    rcases request_finish_returns hr hpos hnum hlast hvalue with ⟨hdd, _⟩ | ⟨_, accepted, h⟩
    · exact absurd hdd hdots
    · refine ⟨accepted, ?_⟩
      simp only [hprocess, ReadOutcome.finish, h]
  · intro accepted reads' h
    obtain ⟨parsed', hread', hok⟩ := request_process_ok h
    rw [hread] at hread'
    cases hread'
    exact (split_exactly hr).body (request_finish_ok hr hpos hok).2

/-- The request line `GET /?a=1 HTTP/1.1` ends in a question mark's
    arguments. -/
def get_query : Head where
  bytes := str "GET /?a=1 HTTP/1.1\r\nHost: a\r\n\r\n"
  method := ⟨some 0, 3⟩
  path := ⟨some 4, 5⟩
  minor_version := 1
  headers := [⟨⟨some 20, 4⟩, ⟨some 26, 1⟩⟩]
  stored := fun n => if 29 ≤ n then 1 else 0

theorem target_split_get_query :
    (get_query.parsedInto Request.uninitialised.start 0).split.url_args = ⟨some 6, 3⟩ ∧
      TargetSplit (parse_one_head get_query) (deliver [get_query.bytes]) Request.uninitialised
        (get_query.parsedInto Request.uninitialised.start 0) [] :=
  ⟨by decide, target_split (by decide) (by decide) (by decide)⟩

end split

end Rask
