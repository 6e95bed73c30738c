import KernelTables.Program

/-!
# What comes out of runs in a row

An account says what has come out of a run and what the run has come to.  Where the output has room
for only so much, an account is cut short.  This file compares runs that share one output with runs
that have an output each, all with the same room.

* `Account.andThen` — one run after another, until one fails;
* `Account.Squeezed` — how **one run** turns out where room is limited;
* `Account.SqueezedEach` — how **runs in a row** turn out where it is limited for each of them, and
  `Squeezed.andThen`, by which one more run comes in front;
* `Squeezed.eq_of_not_usesUp`, `eq_cut_of_usesUp` — **with one output and with an output each**, runs
  turn out the same, unless they use the room up: then the one output has the first bytes.
-/

namespace KernelTables

/-- What has come out of a run, and what the run has come to. -/
abbrev Account := Bytes × Except Failure Unit

namespace Account

/-- One run after another, which is only made if the first one succeeds. -/
def andThen (first second : Account) : Account :=
  match first.2 with
  | .ok () => (first.1 ++ second.1, second.2)
  | .error _ => first

/-- What the first run has put out stays in front. -/
theorem exists_andThen (first second : Account) :
    ∃ more, (first.andThen second).1 = first.1 ++ more := by
  obtain ⟨text, e | ⟨⟩⟩ := first
  · exact ⟨[], (List.append_nil text).symm⟩
  · exact ⟨second.1, rfl⟩

/-- How a run turns out where the output has room for only so much, if `whole` is what it comes to
where there is no limit. -/
inductive Squeezed (room : Option Nat) (whole : Account) : Account → Prop
  /-- There is room for everything. -/
  | fits (h : ∀ n ∈ room, whole.1.length ≤ n) : Squeezed room whole whole
  /-- There is not, so that the room is used up and the run fails. -/
  | cut {n : Nat} (failure : Failure) (hroom : room = some n) (hlong : n < whole.1.length) :
    Squeezed room whole (whole.1.take n, .error failure)

/-- How runs in a row turn out where each of them has only so much room, if `whole` is what they
come to where there is no limit. -/
inductive SqueezedEach (room : Option Nat) (whole : Account) : Account → Prop
  /-- There is room for each of them. -/
  | fits : SqueezedEach room whole whole
  /-- One of them uses its room up and fails, and without a limit as much would have come out. -/
  | cut {n : Nat} {text : Bytes} (failure : Failure) (hroom : room = some n)
    (hused : n ≤ text.length) (hlong : n < whole.1.length)
    (htext : text.take n = whole.1.take n) : SqueezedEach room whole (text, .error failure)

variable {room : Option Nat} {first second whole seen parts : Account}

/-- A single run is a row. -/
theorem Squeezed.each (h : whole.Squeezed room seen) : whole.SqueezedEach room seen := by
  cases h with
  | fits => exact .fits
  | cut failure hroom hlong =>
    refine .cut failure hroom ?_ hlong ?_
    · exact Nat.le_of_eq (List.length_take_of_le (Nat.le_of_lt hlong)).symm
    · rw [List.take_take, Nat.min_self]

/-- **One more run in front of a row.** -/
theorem Squeezed.andThen {first' second' : Account} (h : first.Squeezed room first')
    (h' : second.SqueezedEach room second') :
    (first.andThen second).SqueezedEach room (first'.andThen second') := by
  cases h with
  | fits =>
    obtain ⟨text, e | ⟨⟩⟩ := first
    · exact .fits
    · cases h' with
      | fits => exact .fits
      | @cut n more failure hroom hused hlong htext =>
        have hrest : more.take (n - text.length) = second.1.take (n - text.length) := by
          have hless := congrArg (·.take (n - text.length)) htext
          simpa only [List.take_take, Nat.min_eq_left (Nat.sub_le n text.length)] using hless
        refine .cut failure hroom ?_ ?_ ?_
        · rw [List.length_append]
          exact Nat.le_trans hused (Nat.le_add_left _ _)
        · show n < (text ++ second.1).length
          rw [List.length_append]
          exact Nat.lt_of_lt_of_le hlong (Nat.le_add_left _ _)
        · show (text ++ more).take n = (text ++ second.1).take n
          rw [List.take_append, List.take_append, hrest]
  | cut failure hroom hlong =>
    -- the row ends here, where without a limit more would have come
    obtain ⟨more, hmore⟩ := exists_andThen first second
    refine .cut failure hroom ?_ ?_ ?_
    · exact Nat.le_of_eq (List.length_take_of_le (Nat.le_of_lt hlong)).symm
    · rw [hmore, List.length_append]
      exact Nat.lt_of_lt_of_le hlong (Nat.le_add_right _ _)
    · rw [hmore, List.take_append_of_le_length (Nat.le_of_lt hlong), List.take_take, Nat.min_self]

/-- Whether a room of `n` bytes is used up by what has come out of runs.  Runs that have succeeded
may leave it just full. -/
def UsesUp (account : Account) (n : Nat) : Prop :=
  n ≤ account.1.length ∧ (account.2.isOk = true → n < account.1.length)

/-- **One output for all of a row, against one for each run**: as long as the room is not used up,
they turn out the same. -/
theorem Squeezed.eq_of_not_usesUp (h : whole.Squeezed room seen) (h' : whole.SqueezedEach room parts)
    (hroom : ∀ n ∈ room, ¬parts.UsesUp n) : seen = parts := by
  cases h with
  | fits hfits =>
    cases h' with
    | fits => rfl
    | cut _ hsome _ hlong => exact absurd hlong (Nat.not_lt_of_le (hfits _ hsome))
  | cut _ hsome hlong =>
    cases h' with
    | fits => exact absurd ⟨Nat.le_of_lt hlong, fun _ => hlong⟩ (hroom _ hsome)
    | cut _ hsome' hused => exact absurd ⟨hused, fun hok => absurd hok Bool.noConfusion⟩ (hroom _ hsome')

/-- And where it is used up, the one output has as much of what the others have as there is room
for. -/
theorem Squeezed.eq_cut_of_usesUp {n : Nat} (h : whole.Squeezed room seen)
    (h' : whole.SqueezedEach room parts) (hroom : n ∈ room) (hused : parts.UsesUp n) :
    ∃ failure, seen = (parts.1.take n, .error failure) := by
  obtain ⟨hle, hlonger⟩ := hused
  cases h with
  | fits hfits =>
    cases h' with
    | fits =>
      -- just everything fits, which a success would not call used up
      obtain ⟨text, e | ⟨⟩⟩ := whole
      · exact ⟨e, by rw [List.take_of_length_le (hfits n hroom)]⟩
      · exact absurd (hlonger rfl) (Nat.not_lt_of_le (hfits n hroom))
    | cut _ hsome _ hlong => exact absurd hlong (Nat.not_lt_of_le (hfits _ hsome))
  | cut failure hsome _ =>
    obtain rfl := Option.some.inj (hroom.symm.trans hsome)
    cases h' with
    | fits => exact ⟨failure, rfl⟩
    | cut _ hsome' _ _ htext =>
      obtain rfl := Option.some.inj (hroom.symm.trans hsome')
      exact ⟨failure, by rw [htext]⟩

end Account

end KernelTables
