import AiGateway.Text.Json
import Mathlib.Data.List.MinMax

/-! The scan of a request body for duplicate fields (`internal/gateway/chat_request.go`): the frames
of its recursion and the paths they hold. -/
namespace ChatRequest
open Text List

structure RequestProblem where
  status : ℕ
  (code message param : String)

def invalidJSON : RequestProblem :=
  ⟨400,"INVALID_JSON","The request body must contain exactly one valid JSON object",""⟩

/-- `^[A-Za-z0-9_-]{1,64}$` -/
def safeParameterSegmentPattern (s : String) : Bool :=
  let allowed := fun c => isAlnum c || c == '_' || c == '-'
  isWord allowed allowed 0 63 s

def appendSafeParameter (path segment : String) : String :=
  if !safeParameterSegmentPattern segment then path
  else if path = "" then segment
  else path ++ "." ++ segment

/-- What `Decoder.Token` returns; keys are texts too. -/
inductive Token where
  | openObject
  | closeObject
  | openArray
  | closeArray
  | text (s : String)
  | scalar
  deriving DecidableEq

/-- The bytes that a token takes at least: the characters of a safe key stand for themselves. -/
def Token.bytes : Token → ℕ
  | .text s => if safeParameterSegmentPattern s then s.length + 2 else 2
  | _ => 1

/-- An active call of `scanJSONValue`: before its first token, or in one of its loops. -/
inductive Frame where
  | value (path : String)
  | object (path : String) (seen : List String)
  | array (path : String) (index : ℕ)

def Frame.path : Frame → String
  | .value path | .object path _ | .array path _ => path

/-- The call for the next item of an array, which `More` announces. -/
def enter (token : Token) : List Frame → List Frame
  | .array path index :: frames =>
      if token = .closeArray then .array path index :: frames
      else .value (path ++ "[" ++ index.repr ++ "]") :: .array path (index + 1) :: frames
  | frames => frames

def read (token : Token) : List Frame → Except RequestProblem (List Frame)
  | .value path :: frames => match token with
      | .openObject => .ok (.object path [] :: frames)
      | .openArray => .ok (.array path 0 :: frames)
      | .text _ | .scalar => .ok frames
      | _ => .error invalidJSON
  | .object path seen :: frames => match token with
      | .closeObject => .ok frames
      | .text key =>
          let keyPath := appendSafeParameter path key
          if key ∈ seen then
            .error ⟨400,"DUPLICATE_FIELD","A JSON object contains a duplicate field",keyPath⟩
          else .ok (.value keyPath :: .object path (key :: seen) :: frames)
      | _ => .error invalidJSON
  | .array _ _ :: frames => if token = .closeArray then .ok frames else .error invalidJSON
  | [] => .error invalidJSON

def scan (tokens : List Token) (frames : List Frame) : Except RequestProblem (List Frame) :=
  tokens.foldlM (fun frames token => read token (enter token frames)) frames

def validateJSONShape (tokens : List Token) : Except RequestProblem Unit := do
  let frames ← scan tokens [.value ""]
  if frames = [] then .ok () else .error invalidJSON

/-- The active frames at every point of the scan. -/
def points : List Token → List Frame → List (List Frame)
  | [], frames => [frames]
  | token :: tokens, frames => frames :: enter token frames ::
      match read token (enter token frames) with
      | .ok next => points tokens next
      | .error _ => []

def held (frames : List Frame) : ℕ := (frames.map (·.path.length)).sum

/-- The greatest total length of the paths that are held at one point. -/
def peak (tokens : List Token) : ℕ := ((points tokens [.value ""]).map held).foldr max 0

def bytes (tokens : List Token) : ℕ := (tokens.map Token.bytes).sum

/-! The paths are bounded by the bytes read. -/

theorem Token.one_le_bytes (token : Token) : 1 ≤ token.bytes := by
  cases token with
  | text s => simp only [Token.bytes]; split_ifs <;> omega
  | _ => exact le_rfl

/-- The length of a path, or for an array a bound on those of its next items. -/
def Frame.weight : Frame → ℕ
  | .array path index => path.length + index + 3
  | frame => frame.path.length

structure Bounded (depth weight : ℕ) (frames : List Frame) : Prop where
  depth : frames.length ≤ depth
  weight : ∀ frame ∈ frames, frame.weight ≤ weight

theorem Bounded.held_le {d w : ℕ} {frames : List Frame} (h : Bounded d w frames) :
    held frames ≤ d * w := by
  have hpath : ∀ x ∈ frames.map (·.path.length), x ≤ w := by
    rintro _ hx
    obtain ⟨frame,hframe,rfl⟩ := mem_map.mp hx
    have hweight := h.weight frame hframe
    cases frame <;> simp only [Frame.weight,Frame.path] at hweight ⊢ <;> omega
  calc held frames ≤ frames.length * w := by
        simpa [held] using sum_le_card_nsmul _ w hpath
    _ ≤ d * w := Nat.mul_le_mul_right w h.depth

theorem repr_length_le (n : ℕ) : n.repr.length ≤ n + 1 := by
  apply Nat.repr_length _ _ n.succ_pos
  calc n < n + 1 := n.lt_succ_self
    _ < 10 ^ (n + 1) := Nat.lt_pow_self (by decide)

theorem appendSafeParameter_length (path key : String) :
    (appendSafeParameter path key).length + 1 ≤ path.length + (Token.text key).bytes := by
  unfold appendSafeParameter Token.bytes
  simp only
  cases safeParameterSegmentPattern key with
  | false => simp
  | true =>
    simp only [Bool.not_true,Bool.false_eq_true,if_false,if_true]
    split_ifs
    · omega
    · simp only [String.length_append]
      change path.length + 1 + key.length + 1 ≤ _
      omega

variable {n : ℕ} {frames next : List Frame} {token : Token}

theorem Bounded.enter (token : Token) (h : Bounded (n + 1) (4 * n) frames) :
    Bounded (n + 2) (4 * n + 1) (enter token frames) := by
  have hmono : Bounded (n + 2) (4 * n + 1) frames :=
    ⟨h.depth.trans (by omega),fun frame hframe => (h.weight frame hframe).trans (by omega)⟩
  unfold ChatRequest.enter
  split
  · next path index frames =>
    have hindex : path.length + index + 3 ≤ 4 * n := h.weight _ mem_cons_self
    have hrepr := repr_length_le index
    split_ifs
    · exact hmono
    · refine ⟨by simpa using h.depth,?_⟩
      simp only [forall_mem_cons,Frame.weight,Frame.path,String.length_append]
      refine ⟨?_,by omega,fun frame hframe => hmono.weight _ (mem_cons_of_mem _ hframe)⟩
      change path.length + 1 + index.repr.length + 1 ≤ _
      omega
  · exact hmono

/-- A token opens at most one frame, and its bytes pay for what the paths of that frame grow by. -/
theorem Bounded.read (h : Bounded (n + 2) (4 * n + 1) frames)
    (hread : read token frames = .ok next) :
    Bounded (n + token.bytes + 1) (4 * (n + token.bytes)) next := by
  have hone := token.one_le_bytes
  cases frames with
  | nil => cases hread
  | cons frame frames =>
    have hdepth : frames.length + 1 ≤ n + 2 := h.depth
    obtain ⟨hframe,hframes⟩ := forall_mem_cons.mp h.weight
    have hrest : ∀ f ∈ frames, f.weight ≤ 4 * (n + token.bytes) :=
      fun f hf => (hframes f hf).trans (by omega)
    have hclose : Bounded (n + token.bytes + 1) (4 * (n + token.bytes)) frames := ⟨by omega,hrest⟩
    have hopen : ∀ f : Frame, f.weight ≤ 4 * (n + token.bytes) →
        Bounded (n + token.bytes + 1) (4 * (n + token.bytes)) (f :: frames) := fun f hf =>
      ⟨by simp only [length_cons]; omega,forall_mem_cons.mpr ⟨hf,hrest⟩⟩
    cases frame with
    | value path =>
      change path.length ≤ _ at hframe
      cases token with
      | openObject =>
        cases hread
        exact hopen (.object path []) (by change path.length ≤ _; omega)
      | openArray =>
        cases hread
        exact hopen (.array path 0) (by change path.length + 0 + 3 ≤ 4 * (n + 1); omega)
      | text _ =>
        cases hread
        exact hclose
      | scalar =>
        cases hread
        exact hclose
      | _ => cases hread
    | object path seen =>
      change path.length ≤ _ at hframe
      cases token with
      | closeObject =>
        cases hread
        exact hclose
      | text key =>
        have hkey := appendSafeParameter_length path key
        have htwo : 2 ≤ (Token.text key).bytes := by
          simp only [Token.bytes]
          split_ifs <;> omega
        simp only [ChatRequest.read] at hread
        split_ifs at hread
        cases hread
        refine ⟨by simp only [length_cons]; omega,?_⟩
        simp only [forall_mem_cons]
        refine ⟨?_,?_,hrest⟩
        · change (appendSafeParameter path key).length ≤ _
          omega
        · change path.length ≤ _
          omega
      | _ => cases hread
    | array path index =>
      simp only [ChatRequest.read] at hread
      split_ifs at hread
      cases hread
      exact hclose

theorem held_points_le {tokens : List Token} (h : Bounded (n + 1) (4 * n) frames)
    {stack : List Frame} (hstack : stack ∈ points tokens frames) :
    held stack ≤ 4 * (n + bytes tokens + 1) ^ 2 := by
  induction tokens generalizing n frames with
  | nil =>
    rw [points,mem_singleton] at hstack
    subst hstack
    have hheld := h.held_le
    simp only [bytes,map_nil,sum_nil]
    nlinarith
  | cons token tokens ih =>
    have hone := token.one_le_bytes
    have hbytes : bytes (token :: tokens) = token.bytes + bytes tokens := sum_cons
    have henter := h.enter token
    simp only [points,mem_cons] at hstack
    rcases hstack with rfl | rfl | hlater
    · have hheld := h.held_le
      nlinarith
    · have hheld := henter.held_le
      rw [hbytes]
      nlinarith
    · cases hread : ChatRequest.read token (ChatRequest.enter token frames) with
      | error e => simp [hread] at hlater
      | ok next =>
        rw [hread] at hlater
        have hnext := ih (henter.read hread) hlater
        rwa [hbytes,← add_assoc]

/-- The paths held at one point take at most quadratic space. -/
theorem peak_le (tokens : List Token) : peak tokens ≤ 4 * (bytes tokens + 1) ^ 2 := by
  apply max_le_of_forall_le
  intro x hx
  obtain ⟨stack,hstack,rfl⟩ := mem_map.mp hx
  have hstart : Bounded (0 + 1) (4 * 0) [.value ""] := ⟨le_rfl,by simp [Frame.weight,Frame.path]⟩
  simpa using held_points_le hstart hstack

/-! Arrays in arrays hold one path for each level. -/

def nested (depth : ℕ) : List Token :=
  replicate depth .openArray ++ replicate depth .closeArray

theorem scan_nested (depth : ℕ) (path : String) (tail : List Token) (frames : List Frame) :
    scan (replicate (depth + 1) .openArray ++ (replicate (depth + 1) .closeArray ++ tail))
      (.value path :: frames) = scan tail frames := by
  induction depth generalizing path tail frames with
  | zero => rfl
  | succ depth ih =>
    have hinner := ih (path ++ "[" ++ Nat.repr 0 ++ "]") (.closeArray :: tail)
      (.array path 1 :: frames)
    rw [replicate_succ' (n := depth + 1) (a := Token.closeArray),append_assoc]
    exact hinner

theorem held_nested (depth : ℕ) (path : String) (tail : List Token) (frames : List Frame) :
    ∃ stack ∈ points (replicate depth .openArray ++ tail) (.array path 0 :: frames),
      2 * held stack = (depth + 1) * (2 * path.length + 3 * depth) + 2 * held frames := by
  induction depth generalizing path frames with
  | zero =>
    refine ⟨.array path 0 :: frames,?_,?_⟩
    · cases tail <;> simp [points]
    · simp [held,Frame.path]
      ring
  | succ depth ih =>
    obtain ⟨stack,hstack,hheld⟩ := ih (path ++ "[" ++ Nat.repr 0 ++ "]") (.array path 1 :: frames)
    refine ⟨stack,mem_cons_of_mem _ (mem_cons_of_mem _ hstack),?_⟩
    have hlen : (path ++ "[" ++ Nat.repr 0 ++ "]").length = path.length + 3 := by
      simp only [String.length_append]
      rfl
    rw [hheld,hlen]
    simp only [held,map_cons,sum_cons,Frame.path]
    ring

theorem peak_not_linear :
    ¬∃ C, ∀ tokens, validateJSONShape tokens = .ok () → peak tokens ≤ C * (bytes tokens + 1) := by
  rintro ⟨C,hC⟩
  have hvalid : validateJSONShape (nested (2 * C + 2)) = .ok () := by
    have hscan := scan_nested (2 * C + 1) "" [] []
    rw [append_nil] at hscan
    unfold validateJSONShape
    change scan (nested (2 * C + 2)) _ = _ at hscan
    rw [hscan]
    rfl
  obtain ⟨stack,hstack,hheld⟩ := held_nested (2 * C + 1) ""
    (replicate (2 * C + 2) .closeArray) []
  have hle : held stack ≤ peak (nested (2 * C + 2)) := by
    apply le_max_of_le (mem_map_of_mem _) le_rfl
    exact mem_cons_of_mem _ (mem_cons_of_mem _ hstack)
  have hbytes : bytes (nested (2 * C + 2)) = 2 * (2 * C + 2) := by
    simp [bytes,nested,Token.bytes]
    ring
  have hmost := hC _ hvalid
  rw [hbytes] at hmost
  simp only [held,map_nil,sum_nil,String.length_empty] at hheld hle
  nlinarith

end ChatRequest
