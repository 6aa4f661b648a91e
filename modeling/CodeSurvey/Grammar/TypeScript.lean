import CodeSurvey.Grammar.JavaScript

namespace CodeSurvey.Grammar.TypeScript

open Category Rule

/-- Whether tags are markup (`true`) or type assertions. -/
abbrev Markup := Bool

def moduleRules : List (Category × Rule) := [
  (exportSpecifier, seq [opt (alt ["type", "typeof"]), role .name moduleExportName,
    opt (seq ["as", role .otherName moduleExportName])]),
  (importIdentifier, alt [identifier, rename identifier "type"]),
  (importSpecifier, seq [opt (alt ["type", "typeof"]),
    alt [role .name importIdentifier,
      seq [role .name (alt [moduleExportName, rename identifier "type"]), "as",
        role .otherName importIdentifier]]]),
  (importClause, alt [namespaceImport, namedImports,
    seq [importIdentifier, opt (seq [",", alt [namespaceImport, namedImports]])]]),
  (importStatement, seq ["import", opt (alt ["type", "typeof"]),
    alt [seq [importClause, fromClause], importRequireClause, role .source string],
    opt importAttribute, semicolon]),
  (exportStatement, alt [
    seq ["export",
      alt [seq ["*", fromClause], seq [namespaceExport, fromClause], seq [exportClause, fromClause],
        exportClause],
      semicolon],
    seq [many (role .decorator decorator), "export",
      alt [role .declaration declaration,
        seq ["default",
          alt [role .declaration declaration, seq [role .value expression, semicolon]]]]],
    seq ["export", "type", exportClause, opt fromClause, semicolon],
    seq ["export", "import", importAlias],
    seq ["export", "=", expression, semicolon],
    seq ["export", "as", "namespace", identifier, semicolon]])]

def expressionRules (markup : Markup) : List (Category × Rule) := [
  (callExpression, alt [
    tier .call (seq [role .function (alt [expression, importWord]),
      role .typeArguments (opt typeArguments), role .arguments arguments]),
    tier .templateCall (seq [role .function (alt [primaryExpression, newExpression]),
      role .arguments templateString]),
    tier .member (seq [role .function primaryExpression, "?.",
      role .typeArguments (opt typeArguments), role .arguments arguments])]),
  (newExpression, rightTier .construct (seq ["new", role .constructor primaryExpression,
    role .typeArguments (opt typeArguments), role .arguments (opt arguments)])),
  (augmentedAssignable, alt [memberExpression, subscriptExpression,
    rename identifier reservedIdentifier, identifier, parenthesizedExpression,
    nonNullExpression]),
  (assignableExpression, alt [memberExpression, subscriptExpression, plainIdentifier,
    rename identifier reservedIdentifier, destructuringPattern, nonNullExpression]),
  (primaryExpression, alt [subscriptExpression, memberExpression, parenthesizedExpression,
    plainIdentifier, rename identifier reservedIdentifier, thisWord, superWord, number, string,
    templateString, regex, trueWord, falseWord, nullWord, object, array, functionExpression,
    arrowFunction, generatorFunction, classExpression, metaProperty, callExpression,
    nonNullExpression]),
  (expression, alt ([asExpression, satisfiesExpression, instantiationExpression,
      internalModule].map ref ++
    (if markup then [ref primaryExpression, ref jsxTag]
      else [ref typeAssertion, ref primaryExpression]) ++
    [assignmentExpression, augmentedAssignmentExpression, awaitExpression, unaryExpression,
      binaryExpression, ternaryExpression, updateExpression, newExpression,
      yieldExpression].map ref)),
  (optionalChain, "?."),
  (parenthesizedExpression, seq ["(",
    alt [seq [expression, role .type (opt typeAscription)], sequenceExpression], ")"]),
  (assignmentExpression, rightTier .assign (seq [opt "using",
    role .left (alt [parenthesizedExpression, assignableExpression]), "=",
    role .right expression])),
  (nonNullExpression, leftTier .unary (seq [expression, "!"])),
  (typeAssertion, leftTier .unary (seq [typeArguments, expression])),
  (asExpression, leftTier .binary (seq [expression, "as", alt ["const", typeExpression]])),
  (satisfiesExpression, leftTier .binary (seq [expression, "satisfies", typeExpression])),
  (instantiationExpression, tier .instantiation (seq [expression,
    role .typeArguments typeArguments]))]

def jsxRules : List (Category × Rule) := [
  (jsxStartOpeningElement, seq ["<",
    opt (seq [
      alt [role .name (alt [jsxName, jsxNamespaceName]),
        seq [role .name (alt [identifier, rename memberExpression nestedIdentifier]),
          role .typeArguments (opt typeArguments)]],
      many (role .jsxAttribute jsxAttributeItem)])]),
  (jsxOpeningElement, dynamic (-1) (seq [jsxStartOpeningElement, ">"])),
  (jsxSelfClosingElement, dynamic (-1) (seq [jsxStartOpeningElement, "/>"]))]

def classRules : List (Category × Rule) := [
  (publicFieldDefinition, seq [many (role .decorator decorator),
    opt (alt [seq ["declare", opt accessibilityModifier],
      seq [accessibilityModifier, opt "declare"]]),
    alt [seq [opt "static", opt overrideModifier, opt "readonly"],
      seq [opt "abstract", opt "readonly"], seq [opt "readonly", opt "abstract"],
      opt "accessor"],
    role .name propertyName, opt (alt ["?", "!"]), role .type (opt typeAscription),
    opt initializer]),
  (catchClause, seq ["catch",
    opt (seq ["(", role .parameter (alt [identifier, destructuringPattern]),
      opt (role .type typeAscription), ")"]),
    role .body statementBlock]),
  (variableDeclarator, alt [
    seq [role .name (alt [identifier, destructuringPattern]), role .type (opt typeAscription),
      opt initializer],
    tier .declare (seq [role .name identifier, "!", role .type typeAscription])]),
  (methodSignature, seq [opt accessibilityModifier, opt "static", opt overrideModifier,
    opt "readonly", opt "async", opt (alt ["get", "set", "*"]), role .name propertyName, opt "?",
    signature]),
  (abstractMethodSignature, seq [opt accessibilityModifier, "abstract", opt overrideModifier,
    opt (alt ["get", "set", "*"]), role .name propertyName, opt "?", signature]),
  (formalParameter, alt [requiredParameter, optionalParameter]),
  (functionSignature, seq [opt "async", "function", role .name identifier, signature,
    alt [semicolon, signatureSemicolon]]),
  (decorator, seq ["@", alt [identifier, rename memberExpression decoratorMemberExpression,
    rename callExpression decoratorCallExpression,
    rename parenthesizedExpression decoratorParenthesizedExpression]]),
  (decoratorCallExpression, tier .call (seq [
    role .function (alt [identifier, rename memberExpression decoratorMemberExpression]),
    opt (role .typeArguments typeArguments), role .arguments arguments])),
  (decoratorParenthesizedExpression, seq ["(", alt [identifier,
    rename memberExpression decoratorMemberExpression,
    rename callExpression decoratorCallExpression], ")"]),
  (classBody, seq ["\x7b",
    many (alt [seq [many (role .decorator decorator), methodDefinition, opt semicolon],
      seq [methodSignature, alt [signatureSemicolon, ","]],
      classStaticBlock,
      seq [alt [abstractMethodSignature, indexSignature, methodSignature, publicFieldDefinition],
        alt [semicolon, ","]],
      ";"]),
    "\x7d"]),
  (methodDefinition, left (seq [opt accessibilityModifier, opt "static", opt overrideModifier,
    opt "readonly", opt "async", opt (alt ["get", "set", "*"]), role .name propertyName, opt "?",
    signature, role .body statementBlock])),
  (classHeritage, alt [seq [extendsClause, opt implementsClause], implementsClause]),
  (extendsClause, seq ["extends", commas extendsClauseSingle]),
  (extendsClauseSingle, tier .heritage (seq [role .value expression,
    role .typeArguments (opt typeArguments)])),
  (implementsClause, seq ["implements", commas typeExpression]),
  (classExpression, tier .literal (seq [many (role .decorator decorator), "class",
    role .name (opt typeName), role .typeParameters (opt typeParameters), opt classHeritage,
    role .body classBody])),
  (abstractClassDeclaration, tier .declare (seq [many (role .decorator decorator), "abstract",
    "class", role .name typeName, role .typeParameters (opt typeParameters), opt classHeritage,
    role .body classBody])),
  (classDeclaration, leftTier .declare (seq [many (role .decorator decorator), "class",
    role .name typeName, role .typeParameters (opt typeParameters), opt classHeritage,
    role .body classBody, opt automaticSemicolon])),
  (accessibilityModifier, alt ["public", "private", "protected"]),
  (overrideModifier, "override"),
  (requiredParameter, seq [parameterName, role .type (opt typeAscription), opt initializer]),
  (optionalParameter, seq [parameterName, "?", role .type (opt typeAscription),
    opt initializer]),
  (parameterName, seq [many (role .decorator decorator), opt accessibilityModifier,
    opt overrideModifier, opt "readonly", role .pattern (alt [pattern, thisWord])])]

def declarationRules : List (Category × Rule) := [
  (declaration, alt [functionDeclaration, generatorFunctionDeclaration, classDeclaration,
    lexicalDeclaration, variableDeclaration, functionSignature, abstractClassDeclaration,
    moduleDeclaration, tier .declare internalModule, typeAliasDeclaration, enumDeclaration,
    interfaceDeclaration, importAlias, ambientDeclaration]),
  (importAttribute, seq [alt ["with", "assert"], object]),
  (importRequireClause, seq [identifier, "=", "require", "(", role .source string, ")"]),
  (ambientDeclaration, seq ["declare",
    alt [declaration, seq ["global", statementBlock],
      seq ["module", ".", rename propertyIdentifier identifier, ":", typeExpression,
        semicolon]]]),
  (moduleDeclaration, seq ["module", moduleBody]),
  (internalModule, seq ["namespace", moduleBody]),
  (moduleBody, right (seq [role .name (alt [string, identifier, nestedIdentifier]),
    role .body (opt statementBlock)])),
  (importAlias, seq ["import", identifier, "=", alt [identifier, nestedIdentifier],
    semicolon]),
  (nestedTypeIdentifier, tier .member (seq [
    role .moduleName (alt [identifier, nestedIdentifier]), ".", role .name typeName])),
  (interfaceDeclaration, tier .declare (seq ["interface", role .name typeName,
    role .typeParameters (opt typeParameters), opt extendsTypeClause,
    role .body (rename interfaceBody objectType)])),
  (extendsTypeClause, seq ["extends",
    commas (role .type (alt [typeName, nestedTypeIdentifier, genericType]))]),
  (enumDeclaration, seq [opt "const", "enum", role .name identifier, role .body enumBody]),
  (enumBody, seq ["\x7b",
    opt (seq [commas (alt [role .name propertyName, enumAssignment]), opt ","]), "\x7d"]),
  (enumAssignment, seq [role .name propertyName, initializer]),
  (typeAliasDeclaration, seq ["type", role .name typeName,
    role .typeParameters (opt typeParameters), "=", role .value typeExpression, semicolon])]

def typeRules : List (Category × Rule) := [
  (omittingTypeAscription, seq ["-?:", typeExpression]),
  (addingTypeAscription, seq ["+?:", typeExpression]),
  (optingTypeAscription, seq ["?:", typeExpression]),
  (typeAscription, seq [":", alt [typeExpression,
    rename memberExpression annotationMemberExpression,
    rename callExpression annotationCallExpression]]),
  (annotationMemberExpression, seq [
    role .object (alt [importWord, rename memberExpression annotationMemberExpression,
      rename callExpression annotationCallExpression]), ".",
    role .property (alt [privatePropertyIdentifier, rename propertyIdentifier identifier])]),
  (annotationCallExpression, seq [
    role .function (alt [importWord, rename memberExpression annotationMemberExpression]),
    role .arguments arguments]),
  (assertsPredicate, seq ["asserts", alt [typePredicate, identifier, thisWord]]),
  (assertsAscription, seq [":", assertsPredicate]),
  (typeExpression, alt [primaryType, functionType, readonlyType, constructorType, inferType,
    level (-1) (rename memberExpression annotationMemberExpression),
    level (-1) (rename callExpression annotationCallExpression)]),
  (tupleParameter, seq [role .name (alt [identifier, restPattern]), role .type typeAscription]),
  (optionalTupleParameter, seq [role .name identifier, "?", role .type typeAscription]),
  (optionalType, seq [typeExpression, "?"]),
  (restType, seq ["...", typeExpression]),
  (tupleTypeMember, alt [rename requiredParameter tupleParameter,
    rename optionalParameter optionalTupleParameter, optionalType, restType, typeExpression]),
  (constructorType, left (seq [opt "abstract", "new", role .typeParameters (opt typeParameters),
    role .parameters formalParameters, "=>", role .type typeExpression])),
  (primaryType, alt [parenthesizedType, predefinedType, typeName, nestedTypeIdentifier,
    genericType, objectType, arrayType, tupleType, flowMaybeType, typeQuery, indexTypeQuery,
    rename thisType thisWord, existentialType, literalType, lookupType, conditionalType,
    templateLiteralType, intersectionType, unionType, "const"]),
  (templateType, seq ["$\x7b", alt [primaryType, inferType], "\x7d"]),
  (templateLiteralType, seq ["`", many (alt [rename stringFragment templateChars, templateType]),
    "`"]),
  (inferType, right (seq ["infer", typeName, opt (seq ["extends", typeExpression])])),
  (conditionalType, right (seq [role .left typeExpression, "extends",
    role .right typeExpression, "?", role .consequence typeExpression, ":",
    role .alternative typeExpression])),
  (genericType, tier .call (seq [role .name (alt [typeName, nestedTypeIdentifier]),
    role .typeArguments typeArguments])),
  (typePredicate, seq [role .name (alt [identifier, thisWord, rename identifier predefinedType]),
    "is", role .type typeExpression]),
  (typePredicateAscription, seq [":", typePredicate]),
  (queryMemberExpression, seq [
    role .object (alt [identifier, thisWord,
      rename subscriptExpression querySubscriptExpression,
      rename memberExpression queryMemberExpression, rename callExpression queryCallExpression]),
    alt [".", "?."],
    role .property (alt [privatePropertyIdentifier, rename propertyIdentifier identifier])]),
  (querySubscriptExpression, seq [
    role .object (alt [identifier, thisWord,
      rename subscriptExpression querySubscriptExpression,
      rename memberExpression queryMemberExpression, rename callExpression queryCallExpression]),
    opt "?.", "[", role .index (alt [predefinedType, string, number]), "]"]),
  (queryCallExpression, seq [
    role .function (alt [importWord, identifier, rename memberExpression queryMemberExpression,
      rename subscriptExpression querySubscriptExpression]),
    role .arguments arguments]),
  (queryInstantiationExpression, seq [
    role .function (alt [importWord, identifier, rename memberExpression queryMemberExpression,
      rename subscriptExpression querySubscriptExpression]),
    role .typeArguments typeArguments]),
  (typeQuery, right (seq ["typeof",
    alt [rename subscriptExpression querySubscriptExpression,
      rename memberExpression queryMemberExpression,
      rename callExpression queryCallExpression,
      rename instantiationExpression queryInstantiationExpression, identifier, thisWord]])),
  (indexTypeQuery, seq ["keyof", primaryType]),
  (lookupType, seq [primaryType, "[", typeExpression, "]"]),
  (mappedTypeClause, seq [role .name typeName, "in", role .type typeExpression,
    opt (seq ["as", role .otherName typeExpression])]),
  (literalType, alt [rename unaryExpression signedNumber, number, string, trueWord, falseWord,
    nullWord, undefinedWord]),
  (signedNumber, leftLevel 1 (seq [role .operator (alt ["-", "+"]), role .argument number])),
  (existentialType, "*"),
  (flowMaybeType, right (seq ["?", primaryType])),
  (parenthesizedType, seq ["(", typeExpression, ")"]),
  (predefinedType, alt ["any", "number", "boolean", "string", "symbol",
    rename (.text "unique symbol") (seq ["unique", "symbol"]), "void", "unknown", "string",
    "never", "object"]),
  (typeArguments, seq ["<", commas typeExpression, opt ",", ">"]),
  (objectType, seq [alt ["\x7b", "\x7b|"],
    opt (seq [opt (alt [",", ";"]),
      separated (alt [",", semicolon])
        (alt [exportStatement, propertySignature, callSignature, constructSignature,
          indexSignature, methodSignature]),
      opt (alt [",", semicolon])]),
    alt ["\x7d", "|\x7d"]]),
  (callSignature, signature),
  (propertySignature, seq [opt accessibilityModifier, opt "static", opt overrideModifier,
    opt "readonly", role .name propertyName, opt "?", role .type (opt typeAscription)]),
  (signature, seq [role .typeParameters (opt typeParameters), role .parameters formalParameters,
    role .returnType (opt (alt [typeAscription, assertsAscription, typePredicateAscription]))]),
  (typeParameters, seq ["<", commas typeParameter, opt ",", ">"]),
  (typeParameter, seq [opt "const", role .name typeName, role .constraint (opt constraint),
    role .value (opt defaultType)]),
  (defaultType, seq ["=", typeExpression]),
  (constraint, seq [alt ["extends", ":"], typeExpression]),
  (constructSignature, seq [opt "abstract", "new", role .typeParameters (opt typeParameters),
    role .parameters formalParameters, role .type (opt typeAscription)]),
  (indexSignature, seq [opt (seq [role .sign (opt (alt ["-", "+"])), "readonly"]), "[",
    alt [seq [role .name (alt [identifier, rename identifier reservedIdentifier]), ":",
        role .indexType typeExpression],
      mappedTypeClause],
    "]",
    role .type (alt [typeAscription, omittingTypeAscription, addingTypeAscription,
      optingTypeAscription])]),
  (arrayType, seq [primaryType, "[", "]"]),
  (tupleType, seq ["[", commasOpt tupleTypeMember, opt ",", "]"]),
  (readonlyType, seq ["readonly", typeExpression]),
  (unionType, left (seq [opt typeExpression, "|", typeExpression])),
  (intersectionType, left (seq [opt typeExpression, "&", typeExpression])),
  (functionType, left (seq [role .typeParameters (opt typeParameters),
    role .parameters formalParameters, "=>",
    role .returnType (alt [typeExpression, assertsPredicate, typePredicate])])),
  (typeName, rename typeIdentifier identifier),
  (reservedIdentifier, alt ["declare", "namespace", "type", "public", "private", "protected",
    "override", "readonly", "module", "any", "number", "boolean", "string", "symbol", "export",
    "object", "new", "readonly", alt ["get", "set", "async", "static", "export", "let"]])]

/-- All changes, in the order in which new categories count. -/
def changes (markup : Markup) : List (Category × Rule) :=
  classRules ++ expressionRules markup ++ jsxRules ++ moduleRules ++ declarationRules ++ typeRules

def changed (markup : Markup) (rule : Category × Rule) : Category × Rule :=
  ((changes markup).find? (·.1 = rule.1)).getD rule

def rules (markup : Markup) : List (Category × Rule) :=
  JavaScript.rules.map (changed markup) ++
    (changes markup).filter fun rule => !JavaScript.rules.any (·.1 = rule.1)

def words : List (Category × String) := JavaScript.words.filter (·.1 ≠ optionalChain)

def inlined : List Category :=
  JavaScript.inlined.filter (fun c => c ≠ formalParameter ∧ c ≠ signature) ++
    [typeName, jsxStartOpeningElement]

def hidden : List Category := JavaScript.hidden ++ [jsxStartOpeningElement, importIdentifier,
  extendsClauseSingle, moduleBody, parameterName, typeExpression, tupleTypeMember, primaryType,
  typeName]

def expressionOrderings : List (List Rung) := [
  [Tier.call, Tier.instantiation, Tier.unary, Tier.binary, awaitExpression, arrowFunction],
  [Tier.heritage, Tier.instantiation],
  [intersectionType, unionType, conditionalType, functionType, Tier.binary, typePredicate,
    readonlyType],
  [mappedTypeClause, primaryExpression],
  [accessibilityModifier, primaryExpression],
  [Tier.unaryVoid, expression],
  [extendsClause, primaryExpression],
  [Tier.unary, Tier.assign],
  [Tier.declare, expression],
  [predefinedType, unaryExpression]]

def typeOrderings : List (List Rung) := [
  [typeExpression, flowMaybeType],
  [tupleType, arrayType, pattern, typeExpression],
  [readonlyType, pattern],
  [readonlyType, primaryExpression],
  [typeQuery, subscriptExpression, expression],
  [typeQuery, querySubscriptExpression],
  [nestedTypeIdentifier, genericType, primaryType, lookupType, indexTypeQuery, typeExpression],
  [asExpression, satisfiesExpression, primaryType],
  [queryMemberExpression, memberExpression]]

def queryOrderings : List (List Rung) := [
  [memberExpression, annotationMemberExpression],
  [queryMemberExpression, primaryExpression],
  [querySubscriptExpression, subscriptExpression],
  [querySubscriptExpression, primaryExpression],
  [queryCallExpression, primaryExpression],
  [queryInstantiationExpression, primaryExpression],
  [typeQuery, primaryExpression],
  [overrideModifier, primaryExpression],
  [decoratorCallExpression, decorator],
  [literalType, pattern],
  [predefinedType, pattern],
  [callExpression, queryCallExpression],
  [callExpression, annotationCallExpression],
  [newExpression, primaryExpression],
  [metaProperty, primaryExpression],
  [constructSignature, propertyName]]

def orderings : List (List Rung) :=
  JavaScript.orderings ++ expressionOrderings ++ typeOrderings ++ queryOrderings

end CodeSurvey.Grammar.TypeScript
