import Minerva.Runtime.RunExecution

namespace Minerva

inductive ModelProviderType where
  | openai
  | anthropic
  deriving DecidableEq

def ModelProviderType.value : ModelProviderType → String
  | .openai => "openai"
  | .anthropic => "anthropic"

structure ModelProviderConfig where
  provider : ModelProviderType
  openaiApiKey : Option String
  anthropicApiKey : Option String

namespace ModelProviderConfig

def getApiKey (config : ModelProviderConfig) : Except String String :=
  match config.provider with
  | .openai =>
    match truthy config.openaiApiKey with
    | none => .error "OPENAI_API_KEY is required when MODEL_PROVIDER=openai"
    | some key => .ok key
  | .anthropic =>
    match truthy config.anthropicApiKey with
    | none => .error "ANTHROPIC_API_KEY is required when MODEL_PROVIDER=anthropic"
    | some key => .ok key

/-- The checks of `validate` that follow the schema. -/
def validate (config : ModelProviderConfig) : Except String ModelProviderConfig :=
  match config.provider with
  | .openai =>
    match truthy config.openaiApiKey with
    | none =>
      .error ("Model provider configuration validation failed:\n" ++
        "OPENAI_API_KEY is required when MODEL_PROVIDER=openai")
    | some _ => .ok config
  | .anthropic =>
    match truthy config.anthropicApiKey with
    | none =>
      .error ("Model provider configuration validation failed:\n" ++
        "ANTHROPIC_API_KEY is required when MODEL_PROVIDER=anthropic")
    | some _ => .ok config

end ModelProviderConfig

structure ProviderHealthStatus where
  healthy : Bool
  provider : String
  message : String
  error : Option String

namespace ModelProviderService

def keyPrefix : ModelProviderType → String
  | .openai => "sk-"
  | .anthropic => "sk-ant-"

def isValidApiKeyFormat (config : ModelProviderConfig) (apiKey : String) : Bool :=
  decide ((keyPrefix config.provider).toList <+: apiKey.toList)

def checkHealth (config : ModelProviderConfig) : ProviderHealthStatus :=
  let provider := config.provider.value
  match config.getApiKey with
  | .error errorMessage =>
    ⟨false, provider, "Health check failed for " ++ provider, some errorMessage⟩
  | .ok apiKey =>
    if apiKey = "" then
      ⟨false, provider, "API key not configured for " ++ provider, some "Missing API key"⟩
    else if !isValidApiKeyFormat config apiKey then
      ⟨false, provider, "Invalid API key format for " ++ provider,
        some "API key format validation failed"⟩
    else ⟨true, provider, provider ++ " provider configured successfully", none⟩

variable {config : ModelProviderConfig}

/-- The message of the `ServiceUnavailableException` with which `executeRun` gives up. -/
def unavailable (config : ModelProviderConfig) : String :=
  "Provider " ++ (checkHealth config).provider ++ " is not available: " ++
    ((checkHealth config).error.getD "undefined")

theorem unavailable_ne_empty (config : ModelProviderConfig) : unavailable config ≠ "" := by
  intro empty
  have letters := congrArg (fun text : String => text.toList.length) empty
  simp only [unavailable, String.toList_append, List.length_append] at letters
  have word : ("Provider " : String).toList.length = 9 := by decide
  have none : ("" : String).toList.length = 0 := by decide
  omega

theorem getApiKey_ne_empty {key : String} (got : config.getApiKey = .ok key) : key ≠ "" := by
  have some_text {value : Option String} (read : truthy value = some key) : key ≠ "" := by
    simpa using (Option.mem_filter_iff.mp read).2
  unfold ModelProviderConfig.getApiKey at got
  split at got
  · split at got <;> cases got
    rename_i read
    exact some_text read
  · split at got <;> cases got
    rename_i read
    exact some_text read

theorem healthy_iff : (checkHealth config).healthy = true ↔
    ∃ key, config.getApiKey = .ok key ∧ (keyPrefix config.provider).toList <+: key.toList := by
  unfold checkHealth
  cases got : config.getApiKey with
  | error message => simp
  | ok key =>
      have some_text := getApiKey_ne_empty got
      by_cases starts : (keyPrefix config.provider).toList <+: key.toList
      · simp [some_text, isValidApiKeyFormat, starts]
      · simp [some_text, isValidApiKeyFormat, starts]

theorem unhealthy_error (unhealthy : (checkHealth config).healthy = false) :
    (checkHealth config).error = some "API key format validation failed" ∨
      ∃ message, config.getApiKey = .error message ∧ (checkHealth config).error = some message := by
  unfold checkHealth at unhealthy ⊢
  cases got : config.getApiKey with
  | error message => exact .inr ⟨message, rfl, rfl⟩
  | ok key =>
      rw [got] at unhealthy
      have some_text := getApiKey_ne_empty got
      left
      simp only [if_neg some_text] at unhealthy ⊢
      split at unhealthy
      · rename_i invalid
        rw [if_pos invalid]
      · cases unhealthy

/-- A configuration that has been validated has a key; only its format can be wrong. -/
theorem unhealthy_validated (valid : config.validate = .ok config)
    (unhealthy : (checkHealth config).healthy = false) :
    (checkHealth config).error = some "API key format validation failed" := by
  rcases unhealthy_error unhealthy with format | ⟨message, missing, -⟩
  · exact format
  · unfold ModelProviderConfig.validate at valid
    unfold ModelProviderConfig.getApiKey at missing
    split at valid <;> rename_i provider <;> rw [provider] at missing <;> dsimp only at missing <;>
      split at valid <;> simp_all

/-- No word that `enhanceProviderError` looks for occurs in the message. -/
theorem enhance_unavailable (unhealthy : (checkHealth config).healthy = false) :
    enhanceProviderError (.error (unavailable config)) = unavailable config := by
  have named : (checkHealth config).provider = config.provider.value := by
    unfold checkHealth
    split <;> (repeat' split) <;> rfl
  have texts (provider : ModelProviderType) (error : String)
      (member : error ∈ ["API key format validation failed",
        "OPENAI_API_KEY is required when MODEL_PROVIDER=openai",
        "ANTHROPIC_API_KEY is required when MODEL_PROVIDER=anthropic"]) :
      enhanceProviderError (.error ("Provider " ++ provider.value ++ " is not available: " ++ error)) =
        "Provider " ++ provider.value ++ " is not available: " ++ error := by
    simp only [List.mem_cons, List.not_mem_nil, or_false] at member
    rcases member with rfl | rfl | rfl <;> cases provider <;> decide +kernel
  rw [unavailable, named]
  rcases unhealthy_error unhealthy with format | ⟨message, missing, same⟩
  · rw [format]
    exact texts _ _ (by simp)
  · rw [same]
    apply texts
    unfold ModelProviderConfig.getApiKey at missing
    split at missing <;> split at missing <;> cases missing <;> simp

end ModelProviderService

end Minerva
