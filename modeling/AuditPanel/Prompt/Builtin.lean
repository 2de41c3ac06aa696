import AuditPanel.Review.Reviewer

/-!
The built-in prompt templates: an opening for each reviewer, and the frame around the contract that
all share.
-/

set_option autoImplicit false

namespace AuditPanel.Prompt

def responseFormat : String :=
  "\n".intercalate [
    "\x7b",
    "  \"score\": <0-100, higher is safer>,",
    "  \"riskLevel\": \"Low\" | \"Medium\" | \"High\" | \"Critical\",",
    "  \"summary\": \"<two or three sentences>\",",
    "  \"vulnerabilities\": [",
    "    \x7b",
    "      \"name\": \"<short title>\",",
    "      \"description\": \"<what is wrong and why>\",",
    "      \"category\": \"<e.g. reentrancy, access-control, oracle-manipulation>\",",
    "      \"severity\": \"Low\" | \"Medium\" | \"High\" | \"Critical\",",
    "      \"confidence\": \"Low\" | \"Medium\" | \"High\",",
    "      \"affectedLines\": [<line numbers>],",
    "      \"codeSnippet\": \"<offending code>\",",
    "      \"recommendation\": \"<concrete fix>\",",
    "      \"impact\": \"<what an attacker gains>\"",
    "    \x7d",
    "  ],",
    "  \"recommendations\": [\"<general recommendation>\"],",
    "  \"gasOptimizations\": [\"<optimization>\"],",
    "  \"codeQuality\": \x7b \"score\": <0-100>, \"notes\": [\"<note>\"] \x7d",
    "\x7d"]

def frame : String :=
  "\n".intercalate [
    "## Contract",
    "Name: \x7b\x7bCONTRACT_NAME\x7d\x7d",
    "Chain: \x7b\x7bCHAIN\x7d\x7d",
    "Analysis mode: \x7b\x7bANALYSIS_MODE\x7d\x7d",
    "",
    "\x7b\x7bCONTRACT_METADATA\x7d\x7d",
    "",
    "## Static analyzer results",
    "\x7b\x7bSTATIC_FINDINGS\x7d\x7d",
    "",
    "## Focus areas",
    "\x7b\x7bFOCUS_AREAS\x7d\x7d",
    "",
    "## Source",
    "```solidity",
    "\x7b\x7bSOURCE_CODE\x7d\x7d",
    "```",
    "",
    "Respond with ONLY a JSON object of this shape:",
    "\x7b\x7bRESPONSE_FORMAT\x7d\x7d",
    ""]

def opening : Reviewer → String
  | .security =>
    "Perform a security audit of the contract below. Report only issues you can tie to specific "
    ++ "lines. Static analyzer hits are hints: confirm or ignore them, do not copy them blindly."
  | .quality =>
    "Review the contract below for code quality and gas efficiency. Put gas savings in "
    ++ "gasOptimizations and maintainability notes in codeQuality; only list vulnerabilities when "
    ++ "they are real defects."
  | .economics =>
    "Analyse the economic design of the contract below. Look for ways value can be extracted or "
    ++ "accounting can drift even when every call succeeds."
  | .defi =>
    "Audit the DeFi mechanics of the contract below. Consider attackers with flash-loan capital "
    ++ "and control over pool prices within one transaction."
  | .crossChain =>
    "Audit the cross-chain messaging and custody logic of the contract below. Assume relayers and "
    ++ "remote chains may be malicious or delayed."
  | .mev =>
    "Analyse the contract below for transaction-ordering exposure. Identify operations a searcher "
    ++ "could front-run, back-run or sandwich and estimate the value at risk."

def builtinTemplate (r : Reviewer) : String :=
  opening r ++ "\n\n" ++ frame

end AuditPanel.Prompt
