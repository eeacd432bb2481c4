import Rask.WholeHeads

/-! # Requests Sent Without Waiting

    A client may send several requests on a connection before it has read a
    reply. `connection_handler` keeps the bytes it has read in a structure
    of its own, which the next call starts anew, so what a read brings
    behind the first head is gone after the call.

    * **Rounds**: each call answers the first request of the next read.
    * **`pipelined_iff`**: every request is answered once and in order
      exactly when no read brings more than one.
-/

namespace Rask

/-! ### Groups of requests -/

/-- The bytes of the requests of one read. -/
def group_bytes (group : List Head) : Bytes := (group.map Head.bytes).flatten

/-- The reads that bring the groups. -/
def deliver_groups (groups : List (List Head)) : List ReadResult := deliver (groups.map group_bytes)

/-- A finite sequence of requests, grouped into reads. Every read brings at
    least one whole request and fits into the buffer. -/
structure Grouping (phr_parse_request : PhrParser) (groups : List (List Head)) : Prop where
  whole : ∀ group ∈ groups, ∀ head ∈ group, WholeHead phr_parse_request head
  nonempty : ∀ group ∈ groups, group ≠ []
  fits : ∀ group ∈ groups, (group_bytes group).length ≤ MAX_BUFFER

theorem Grouping.of_append {phr_parse_request : PhrParser} {before groups : List (List Head)}
    (h : Grouping phr_parse_request (before ++ groups)) : Grouping phr_parse_request groups :=
  ⟨fun g hg => h.whole g (List.mem_append_right _ hg),
    fun g hg => h.nonempty g (List.mem_append_right _ hg),
    fun g hg => h.fits g (List.mem_append_right _ hg)⟩

/-- There are as many requests as reads exactly when each read brings one. -/
theorem length_flatten_eq_iff {groups : List (List Head)} (hne : ∀ group ∈ groups, group ≠ []) :
    groups.length ≤ groups.flatten.length ∧
      (groups.flatten.length = groups.length ↔ ∀ group ∈ groups, group.length = 1) := by
  induction groups with
  | nil => simp
  | cons group groups ih =>
    obtain ⟨hle, hiff⟩ := ih fun g hg => hne g (List.mem_cons_of_mem _ hg)
    have hpos := List.length_pos_iff.mpr (hne group List.mem_cons_self)
    rw [List.flatten_cons, List.length_append, List.length_cons, List.forall_mem_cons, ← hiff]
    constructor
    · omega
    · constructor <;> intro h <;> omega

/-! ### Answers -/

/-- The round handles the request `head` as if it had come alone. -/
def Answers (phr_parse_request : PhrParser) (x : Connection × Env) (head : Head) : Prop :=
  ∃ w code request reads, x.1 = .serving w ∧
    request_process phr_parse_request w.reads Request.uninitialised = .returned code request reads ∧
    head.bytes <+: request.buffer ∧
    SameRequest (.returned code request reads)
      (request_process phr_parse_request (deliver [head.bytes]) Request.uninitialised)

/-- The call of `connection_handler` in this round returns `OK`. -/
def ReturnsOk (phr_parse_request : PhrParser) (server_attrs : Config) (x : Connection × Env) : Prop :=
  ∃ w w', x.1 = .serving w ∧
    connection_handler phr_parse_request server_attrs x.2 w = .ok (OK, w')

/-- The round answers the first request of the group. -/
def AnswersFirst (phr_parse_request : PhrParser) (x : Connection × Env) (group : List Head) : Prop :=
  ∃ head ∈ group.head?, Answers phr_parse_request x head

section Rounds

variable {phr_parse_request : PhrParser} {server_attrs : Config} {head : Head}

/-- The split target does not depend on what follows the head. -/
theorem parsedWith_split (h : WholeHead phr_parse_request head) (rest : Bytes) :
    (head.parsedWith rest).split.path = (head.parsedWith []).split.path ∧
      (head.parsedWith rest).split.url_args = (head.parsedWith []).split.url_args := by
  unfold Request.split
  rw [parsedWith_target h, parsedWith_target h]
  split
  · exact ⟨rfl, rfl⟩
  · exact ⟨rfl, rfl⟩

/-- The end of `request_process` makes of the head what it makes of the head
    alone. -/
theorem finish_parsedWith (h : WholeHead phr_parse_request head) (rest : Bytes) {code : Int}
    {request : Request} {reads reads' : List ReadResult}
    (hfinish : (ReadOutcome.parsed (head.parsedWith rest) reads).finish
      = .returned code request reads') :
    reads' = reads ∧ request.buffer = head.bytes ++ rest ∧
      SameRequest (.returned code request reads')
        (ReadOutcome.parsed (head.parsedWith []) []).finish := by
  have hparsed := parsedWith_parsedHead h rest
  have halone := parsedWith_parsedHead h []
  by_cases hdd : HasDotDot (head.path.bytes head.bytes)
  · -- both are rejected
    have hreject : ∀ behind, request_finish (head.parsedWith behind)
        = .ok (BAD_REQUEST, head.parsedWith behind) := by
      intro behind
      have hbehind := parsedWith_parsedHead h behind
      have htarget : HasDotDot (head.parsedWith behind).target := by
        rw [parsedWith_target h]
        exact hdd
      rw [request_finish_eq hbehind.path_inRange hbehind.path_pos, if_pos htarget]
    simp only [ReadOutcome.finish, hreject] at hfinish ⊢
    cases hfinish
    exact ⟨rfl, rfl, rfl, rfl, rfl, rfl, rfl⟩
  · have htarget : ∀ behind, ¬ HasDotDot (head.parsedWith behind).target := by
      intro behind
      rw [parsedWith_target h]
      exact hdd
    cases hlast : head.headers.getLast? with
    | none =>
      -- without a header `_parse_body` faults
      have hnone : request_finish (head.parsedWith rest) = .error .out_of_range := by
        obtain ⟨_, _, hheaders, hnum⟩ := (head.parsedWith rest).split_frame
        rw [request_finish_eq hparsed.path_inRange hparsed.path_pos, if_neg (htarget rest),
          parse_body_no_header (hnum.trans (congrArg List.length hheaders.symm))
            (hheaders.trans (List.getLast?_eq_none_iff.mp hlast))]
        rfl
      simp only [ReadOutcome.finish, hnone] at hfinish
      cases hfinish
    | some last =>
      obtain ⟨tail, off, hoff, _⟩ := h.guarantee.tail last hlast
      have hsplit := parsedWith_split h rest
      simp only [ReadOutcome.finish, request_finish_last hparsed (htarget rest) hlast hoff] at hfinish
      simp only [ReadOutcome.finish, request_finish_last halone (htarget []) hlast hoff]
      cases hfinish
      obtain ⟨hbuffer, hmethod, hheaders, _⟩ := (head.parsedWith rest).split_frame
      obtain ⟨_, hmethod', hheaders', _⟩ := (head.parsedWith []).split_frame
      exact ⟨rfl, hbuffer, rfl, hmethod.trans hmethod'.symm, hsplit.1, hsplit.2,
        hheaders.trans hheaders'.symm⟩

/-- One round takes one read, and answers the first request in it. -/
theorem round_answersFirst {group : List Head} {groups : List (List Head)}
    (hgroups : Grouping phr_parse_request (group :: groups)) {env : Env} {w w' : World}
    (hreads : w.reads = deliver_groups (group :: groups)) {response_code : Int}
    (hok : connection_handler phr_parse_request server_attrs env w = .ok (response_code, w')) :
    AnswersFirst phr_parse_request (.serving w, env) group ∧ w'.reads = deliver_groups groups := by
  cases group with
  | nil => exact absurd rfl (hgroups.nonempty [] List.mem_cons_self)
  | cons head behind =>
    have hhead := hgroups.whole _ List.mem_cons_self head List.mem_cons_self
    have hfits := hgroups.fits _ List.mem_cons_self
    -- the read brings the head and what is grouped with it, and the parser sees the head
    -- alone
    have hread : request_read phr_parse_request w.reads Request.uninitialised.start
        = .parsed (head.parsedWith (group_bytes behind)) (deliver_groups groups) := by
      rw [hreads]
      exact request_read_whole hhead hfits _
    have halone : request_process phr_parse_request (deliver [head.bytes]) Request.uninitialised
        = (ReadOutcome.parsed (head.parsedWith []) []).finish := by
      have hfits' : (head.bytes ++ []).length ≤ MAX_BUFFER := by
        have hle : (head.bytes ++ group_bytes behind).length ≤ MAX_BUFFER := hfits
        rw [List.length_append] at hle
        rw [List.append_nil]
        omega
      have hread' := request_read_whole hhead hfits' []
      rw [List.append_nil] at hread'
      exact congrArg ReadOutcome.finish hread'
    have hprocess : request_process phr_parse_request w.reads Request.uninitialised
        = (ReadOutcome.parsed (head.parsedWith (group_bytes behind)) (deliver_groups groups)).finish :=
      congrArg ReadOutcome.finish hread
    obtain ⟨code, request, reads, hreturned⟩ := connection_handler_returned hok
    obtain ⟨hlater, hbuffer, hsame⟩ :=
      finish_parsedWith hhead (group_bytes behind) (hprocess.symm.trans hreturned)
    refine ⟨⟨head, rfl, w, code, request, reads, rfl, hreturned, ?_, halone ▸ hsame⟩, ?_⟩
    · rw [hbuffer]
      exact List.prefix_append _ _
    · rw [connection_handler_reads hreturned hok, hlater]

/-- The rounds of a run answer the first request of one read after the
    other. The induction is on the run: what is left to be read are the
    groups that no round has taken. -/
theorem rounds_answerFirst {groups : List (List Head)} (hgroups : Grouping phr_parse_request groups)
    {steps : List (Connection × Env)} {conn' : Connection}
    (hrun : (connections phr_parse_request server_attrs).Run
      (.serving ⟨deliver_groups groups, 0, []⟩) steps conn')
    (hok : ∀ x ∈ steps, ReturnsOk phr_parse_request server_attrs x) :
    ∃ done rest w', groups = done ++ rest ∧ conn' = .serving w' ∧
      w'.reads = deliver_groups rest ∧
      List.Forall₂ (AnswersFirst phr_parse_request) steps done := by
  induction hrun with
  | nil => exact ⟨[], groups, _, rfl, rfl, rfl, .nil⟩
  | snoc l hrun hst ih =>
    obtain ⟨done, rest, w, hsplit, hconn, hreads, hanswers⟩ :=
      ih fun x hx => hok x (List.mem_append_left _ hx)
    obtain ⟨w₀, response_code, w', hserving, hhandler, hnext⟩ := connections_step hst
    rw [hconn] at hserving
    cases hserving
    -- the round returned `OK`, so the worker stays in the loop
    obtain ⟨w₁, w₂, hserving, hreturns⟩ := hok _ (List.mem_append_right _ (List.mem_singleton_self _))
    have hsame : w₁ = w := Connection.serving.inj (hserving.symm.trans hconn)
    rw [hsame, hhandler] at hreturns
    cases hreturns
    rw [if_pos (by decide)] at hnext
    cases rest with
    | nil =>
      -- nothing left to be read: the call would block
      obtain ⟨code, request, reads, hreturned⟩ := connection_handler_returned hhandler
      rw [hreads] at hreturned
      cases hreturned
    | cons group rest =>
      have hrest : Grouping phr_parse_request (group :: rest) := (hsplit ▸ hgroups).of_append
      obtain ⟨hfirst, hleft⟩ := round_answersFirst hrest hreads hhandler
      refine ⟨done ++ [group], rest, w', ?_, hnext, hleft, ?_⟩
      · rw [hsplit, List.append_assoc]
        rfl
      · rw [hconn]
        exact List.rel_append hanswers (.cons hfirst .nil)

/-- **Pipelining.** In a run that takes all reads of the client, and in which
    every call returns `OK`, every request is answered exactly once and in
    order if and only if each read brings one request. -/
theorem pipelined_iff {groups : List (List Head)} (hgroups : Grouping phr_parse_request groups)
    {steps : List (Connection × Env)} {conn' : Connection}
    (hrun : (connections phr_parse_request server_attrs).Run
      (.serving ⟨deliver_groups groups, 0, []⟩) steps conn')
    (hok : ∀ x ∈ steps, ReturnsOk phr_parse_request server_attrs x)
    (hend : conn'.world.reads = []) :
    List.Forall₂ (Answers phr_parse_request) steps groups.flatten ↔
      ∀ group ∈ groups, group.length = 1 := by
  obtain ⟨done, rest, w', hsplit, hconn, hreads, hfirst⟩ := rounds_answerFirst hgroups hrun hok
  -- all reads have been taken, so each of them was answered once
  have hrest : rest = [] := by
    rw [hconn] at hend
    have hnil : deliver_groups rest = [] := hreads.symm.trans hend
    simpa [deliver_groups, deliver] using hnil
  have hdone : done = groups := by rw [hsplit, hrest, List.append_nil]
  subst hdone
  constructor
  · -- one answer to each read: the numbers agree only for single requests
    intro hanswers
    have hlen : done.flatten.length = done.length :=
      hanswers.length_eq.symm.trans hfirst.length_eq
    exact (length_flatten_eq_iff hgroups.nonempty).2.mp hlen
  · intro hsingle
    clear hrun hok hsplit hgroups
    -- by induction on the rounds
    induction hfirst with
    | nil => exact .nil
    | cons hx _ ih =>
      obtain ⟨head, hhead, hanswers⟩ := hx
      obtain ⟨head', rfl⟩ := List.length_eq_one_iff.mp (hsingle _ List.mem_cons_self)
      cases hhead
      exact .cons hanswers (ih fun g hg => hsingle g (List.mem_cons_of_mem _ hg))

end Rounds

/-! ### One request in a read, and two -/

theorem get_root_whole : WholeHead (parse_leading_head get_root) get_root :=
  parse_leading_head_whole get_root_guarantee (by decide)

/-- Reads with requests for the page. -/
theorem get_root_grouping {groups : List (List Head)}
    (hpage : ∀ group ∈ groups, ∀ head ∈ group, head = get_root)
    (hne : ∀ group ∈ groups, group ≠ [])
    (hfits : ∀ group ∈ groups, (group_bytes group).length ≤ MAX_BUFFER) :
    Grouping (parse_leading_head get_root) groups where
  whole group hgroup head hhead := hpage group hgroup head hhead ▸ get_root_whole
  nonempty := hne
  fits := hfits

/-- The page, on a host on which every call succeeds. -/
def empty_page : Env := Env.friendly (str "/var/www/index.html") []

theorem run_of_ok {phr_parse_request : PhrParser} {server_attrs : Config} {env : Env}
    {w w' : World} (h : connection_handler phr_parse_request server_attrs env w = .ok (OK, w')) :
    (connections phr_parse_request server_attrs).step (.serving w) env (.serving w') := by
  show Connection.next phr_parse_request server_attrs (.serving w) env = some (.serving w')
  simp only [Connection.next, h]
  rfl

/-- The client asks for the page twice, in two reads, and gets it twice. -/
theorem pipelined_iff_two_reads :
    ∃ steps conn', (connections (parse_leading_head get_root) var_www).Run
        (.serving ⟨deliver_groups [[get_root], [get_root]], 0, []⟩) steps conn' ∧
      steps.length = 2 ∧
      List.Forall₂ (Answers (parse_leading_head get_root)) steps [get_root, get_root] := by
  have hgroups : Grouping (parse_leading_head get_root) [[get_root], [get_root]] :=
    get_root_grouping (by simp) (by simp) (by decide)
  have hcodes : (connection_handler (parse_leading_head get_root) var_www empty_page
      ⟨deliver_groups [[get_root], [get_root]], 0, []⟩).toOption.map (fun x =>
        (x.1, (connection_handler (parse_leading_head get_root) var_www empty_page
          x.2).toOption.map Prod.fst)) = some (OK, some OK) := by
    decide +kernel
  obtain ⟨_, w, hfirst, hcodes⟩ := Host.ok_of_toOption hcodes
  obtain ⟨rfl, hcode⟩ := Prod.mk.inj hcodes
  obtain ⟨_, w', hsecond, rfl⟩ := Host.ok_of_toOption hcode
  -- each call takes one of the reads
  have hleft := (round_answersFirst hgroups rfl hfirst).2
  have hnone :=
    (round_answersFirst (@Grouping.of_append _ [[get_root]] _ hgroups) hleft hsecond).2
  have hrun : (connections (parse_leading_head get_root) var_www).Run
      (.serving ⟨deliver_groups [[get_root], [get_root]], 0, []⟩)
      [(.serving ⟨deliver_groups [[get_root], [get_root]], 0, []⟩, empty_page),
        (.serving w, empty_page)] (.serving w') :=
    .snoc _ (.snoc _ (.nil _) (run_of_ok hfirst)) (run_of_ok hsecond)
  have hanswers := pipelined_iff hgroups hrun ?_ hnone
  · exact ⟨_, _, hrun, rfl, hanswers.mpr (by simp)⟩
  · intro x hx
    simp only [List.mem_cons, List.not_mem_nil, or_false] at hx
    rcases hx with rfl | rfl
    · exact ⟨_, w, rfl, hfirst⟩
    · exact ⟨w, w', rfl, hsecond⟩

/-- Two requests in one read: the run that takes the read is over after one
    answer. -/
theorem second_request_lost :
    Grouping (parse_leading_head get_root) [[get_root, get_root]] ∧
      ∃ conn', (connections (parse_leading_head get_root) var_www).Run
          (.serving ⟨deliver_groups [[get_root, get_root]], 0, []⟩)
          [(.serving ⟨deliver_groups [[get_root, get_root]], 0, []⟩, empty_page)] conn' ∧
        ReturnsOk (parse_leading_head get_root) var_www
          (.serving ⟨deliver_groups [[get_root, get_root]], 0, []⟩, empty_page) ∧
        conn'.world.reads = [] ∧
        ¬ List.Forall₂ (Answers (parse_leading_head get_root))
          [(.serving ⟨deliver_groups [[get_root, get_root]], 0, []⟩, empty_page)]
          [[get_root, get_root]].flatten := by
  have hgroup : Grouping (parse_leading_head get_root) [[get_root, get_root]] :=
    get_root_grouping (by simp) (by simp) (by decide)
  have hcode : (connection_handler (parse_leading_head get_root) var_www empty_page
      ⟨deliver_groups [[get_root, get_root]], 0, []⟩).toOption.map Prod.fst = some OK := by
    decide +kernel
  obtain ⟨_, w', hok, rfl⟩ := Host.ok_of_toOption hcode
  refine ⟨hgroup, .serving w', .snoc empty_page (.nil _) (run_of_ok hok), ⟨_, w', rfl, hok⟩,
    (round_answersFirst hgroup rfl hok).2, ?_⟩
  intro hanswers
  exact nomatch hanswers.length_eq

end Rask
