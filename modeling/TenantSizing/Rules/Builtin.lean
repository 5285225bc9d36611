namespace TenantSizing

/-- The rules that hold unless others are given. The value of a leaf is only a marker. -/
def builtinRules : String :=
  "\n".intercalate [
    "- name: ibm-im-operator",
    "  spec:",
    "    authentication:",
    "      replicas: LARGEST_VALUE",
    "      authService:",
    "        resources:",
    "          limits:",
    "            cpu: LARGEST_VALUE",
    "            memory: LARGEST_VALUE",
    "          requests:",
    "            cpu: LARGEST_VALUE",
    "            memory: LARGEST_VALUE",
    "      identityManager:",
    "        resources:",
    "          limits:",
    "            cpu: LARGEST_VALUE",
    "            memory: LARGEST_VALUE",
    "          requests:",
    "            cpu: LARGEST_VALUE",
    "            memory: LARGEST_VALUE",
    "      identityProvider:",
    "        resources:",
    "          limits:",
    "            cpu: LARGEST_VALUE",
    "            memory: LARGEST_VALUE",
    "          requests:",
    "            cpu: LARGEST_VALUE",
    "            memory: LARGEST_VALUE",
    "      config:",
    "        fipsEnabled: LARGEST_VALUE",
    "- name: ibm-idp-config-ui-operator",
    "  spec:",
    "    commonWebUI:",
    "      replicas: LARGEST_VALUE",
    "      resources:",
    "        limits:",
    "          cpu: LARGEST_VALUE",
    "          memory: LARGEST_VALUE",
    "        requests:",
    "          cpu: LARGEST_VALUE",
    "          memory: LARGEST_VALUE",
    "- name: ibm-mongodb-operator",
    "  spec:",
    "    mongoDB:",
    "      replicas: LARGEST_VALUE",
    "      resources:",
    "        limits:",
    "          cpu: LARGEST_VALUE",
    "          memory: LARGEST_VALUE",
    "        requests:",
    "          cpu: LARGEST_VALUE",
    "          memory: LARGEST_VALUE",
    "- name: common-service-postgresql",
    "  spec:",
    "    cluster:",
    "      instances: LARGEST_VALUE",
    "      postgresql:",
    "        parameters:",
    "          max_connections: LARGEST_VALUE",
    "          shared_buffers: LARGEST_VALUE",
    "      resources:",
    "        limits:",
    "          cpu: LARGEST_VALUE",
    "          memory: LARGEST_VALUE",
    "        requests:",
    "          cpu: LARGEST_VALUE",
    "          memory: LARGEST_VALUE",
    ""]

end TenantSizing
